import MeasuredBoot.CommandLine
import MeasuredBoot.Common.BootConfig
import MeasuredBoot.Common.Streams
import MeasuredBoot.Ima.InBounds
import MeasuredBoot.Ima.Templates
import MeasuredBoot.ImageBinding
import MeasuredBoot.PcrExtend
import MeasuredBoot.SkippedFiles
import MeasuredBoot.Snp.Binding
import MeasuredBoot.Snp.Coverage
import MeasuredBoot.SrtmLog.CutLog
import MeasuredBoot.SrtmLog.Printing
import MeasuredBoot.SrtmLog.Summary
import MeasuredBoot.SrtmPcrs.FirmwareLayout
import MeasuredBoot.SrtmPcrs.GrubCmds
import MeasuredBoot.Tdx.InBounds
import MeasuredBoot.Tdx.PrintedLog
import MeasuredBoot.UefiVariables
import MeasuredBoot.Verification
