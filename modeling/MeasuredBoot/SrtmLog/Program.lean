import MeasuredBoot.Common.PcrNums
import MeasuredBoot.Common.Sha2
import MeasuredBoot.SrtmLog.Subscripts

/-! # The program parse-srtm-pcrs

`main` from its arguments on, with its subscripts written out. The numbers after `--pcrs`
are not checked: each of them is a subscript of all three kinds of output. An event of
a requested register from 24 to 31, or of any in the old format, is one in the callbacks.
-/

namespace MeasuredBoot.SrtmLog

open Binary Imperative Imperative.Proc

/-! ## Options -/

/-- The locals of `main` that the option loop fills. -/
structure Options where
  printSummary : Bool
  printEventlog : Bool
  printAggregate : Bool
  format : Format
  pcrNums : List UInt32
  inputFile : Option Bytes

def Options.start : Options := ⟨false, false, false, .text, [], none⟩

/-- The numbers as the callbacks look them up. -/
def Options.nums (opts : Options) : List Nat := opts.pcrNums.map UInt32.toNat

/-- An option without an argument; `--help` and an unknown one leave `main`. -/
def readFlag (arg : Bytes) (opts : Options) : Option Options :=
  if arg = ascii "-e" ∨ arg = ascii "--eventlog" then some { opts with printEventlog := true }
  else if arg = ascii "-s" ∨ arg = ascii "--summary" then some { opts with printSummary := true }
  else if arg = ascii "-a" ∨ arg = ascii "--aggregate" then
    some { opts with printAggregate := true }
  else if arg = ascii "-v" ∨ arg = ascii "--verbose" then some opts
  else none

def readFormat (value : Bytes) : Option Format :=
  if value = ascii "json" then some .json else if value = ascii "text" then some .text else none

/-- The kinds of option that take an argument. -/
inductive ValueOption where
  | format
  | pcrs
  | input

def valueOption (arg : Bytes) : Option ValueOption :=
  if arg = ascii "-f" ∨ arg = ascii "--format" then some .format
  else if arg = ascii "-p" ∨ arg = ascii "--pcrs" then some .pcrs
  else if arg = ascii "-i" ∨ arg = ascii "--in" then some .input
  else none

def readValue (value : Bytes) (opts : Options) : ValueOption → Option Options
  | .format => (readFormat value).map fun format => { opts with format := format }
  | .pcrs => some { opts with pcrNums := opts.pcrNums ++ readPcrNums value }
  | .input => some { opts with inputFile := some value }

/-- The option loop of `main`: none where it jumps to `out`. -/
def readOptions : List Bytes → Options → Option Options
  | [], opts => some opts
  | [arg], opts => readFlag arg opts
  | arg :: value :: rest, opts =>
      match valueOption arg with
      | some kind =>
          match readValue value opts kind with
          | some opts => readOptions rest opts
          | none => none
      | none =>
          match readFlag arg opts with
          | some opts => readOptions (value :: rest) opts
          | none => none

/-! ## Output -/

/-- `cb_data` and what a run that goes on has printed, besides the messages of `--verbose`. -/
structure MainRun where
  cb : CbData
  out : Bytes

namespace MainRun

def print (text : Bytes) (s : MainRun) : MainRun := { s with out := s.out ++ text }

/-- The callbacks have printed their messages before `main` prints anything. -/
def setCb (cb : CbData) (s : MainRun) : MainRun :=
  { s with cb := cb, out := s.out ++ cb.messages }

def setLog (index : Nat) (text : Bytes) (s : MainRun) : MainRun :=
  { s with cb := { s.cb with eventlog := Function.update s.cb.eventlog index (some text) } }

end MainRun

section Output

variable (beyond : Option Int)

/-- The loop that looks for a text behind the current one. -/
def isLast : List UInt32 → Proc MainRun Bool
  | [] => return true
  | num :: rest => do
      subscript beyond num.toNat
      let s ← getState
      let last ← isLast rest
      return (s.cb.eventlog num.toNat).isNone && last

/-- A newline is written over the second last character and the last one is cut off. -/
def endLog (index : Nat) (text : Bytes) : Proc MainRun Unit :=
  if text.length < 2 then fault
  else update (MainRun.setLog index (text.take (text.length - 2) ++ ascii "\n"))

def printLogs : List UInt32 → Proc MainRun Unit
  | [] => return ()
  | num :: rest => do
      let last ← isLast beyond rest
      subscript beyond num.toNat
      let s ← getState
      match s.cb.eventlog num.toNat with
      | none => printLogs rest
      | some text => do
          when last (endLog num.toNat text)
          update fun s => s.print ((s.cb.eventlog num.toNat).getD [])
          printLogs rest

/-- The block under `if (print_eventlog)`. -/
def printEventlog (opts : Options) : Proc MainRun Unit := do
  when (opts.format = .json) (update (MainRun.print (ascii "[")))
  printLogs beyond opts.pcrNums
  when (opts.format = .json) (update (MainRun.print (ascii "]\n")))

def summaryLoop (format : Format) : List UInt32 → Proc MainRun Unit
  | [] => return ()
  | num :: rest => do
      subscript beyond num.toNat
      let s ← getState
      match format with
      | .json => do
          update (MainRun.print (jsonSummary (ascii "pcr") num (s.cb.calcPcrs num.toNat)))
          when (rest ≠ []) (update (MainRun.print (ascii ",\n")))
      | .text => update (MainRun.print (textSummary num (s.cb.calcPcrs num.toNat)))
      summaryLoop format rest

/-- The block under `if (print_summary)`. -/
def printSummary (opts : Options) : Proc MainRun Unit := do
  when (opts.format = .json) (update (MainRun.print (ascii "[")))
  summaryLoop beyond opts.format opts.pcrNums
  when (opts.format = .json) (update (MainRun.print (ascii "]\n")))

/-- The block under `if (print_aggregate)`. -/
def printAggregate (sha256 : Md 32) (opts : Options) : Proc MainRun Unit := do
  forEach (fun num => subscript beyond (UInt32.toNat num)) opts.pcrNums
  update fun s =>
    let aggregate := sha256 (opts.pcrNums.flatMap fun num => (s.cb.calcPcrs num.toNat).val)
    s.print (match opts.format with
      | .json => jsonAggregate aggregate
      | .text => textAggregate aggregate)

/-! ## The program -/

def biosMeasurements : Bytes := ascii "/sys/kernel/security/tpm0/binary_bios_measurements"

/-- The outputs that were asked for. -/
def printOutput (sha256 : Md 32) (opts : Options) : Proc MainRun Int := do
  when opts.printEventlog (printEventlog beyond opts)
  when opts.printSummary (printSummary beyond opts)
  when opts.printAggregate (printAggregate beyond sha256 opts)
  return 0

/-- `main` once the log has been read. -/
def printLog (sha256 : Md 32) (opts : Options) (b : EventBuf) : Proc MainRun Int := do
  let parsed ← inner (parseEventlog (Subscripted.programContext beyond sha256) b.memory
    b.log.length) (CbData.start opts.format opts.nums)
  update (MainRun.setCb parsed.2)
  exitIf (parsed.1 ≠ 1) (-1)
  printOutput beyond sha256 opts

/-- `main` of parse-srtm-pcrs, over the logs that can be opened. -/
def main (sha256 : Md 32) (logs : Bytes → Option EventBuf) (argv : List Bytes) :
    Proc MainRun Int :=
  match readOptions argv Options.start with
  | none => exit (-1)
  | some opts => do
      exitIf (opts.pcrNums = []) (-1)
      match logs (opts.inputFile.getD biosMeasurements) with
      | none => exit (-1)
      | some b => printLog beyond sha256 opts b

end Output

/-! ## Events the parser comes to -/

/-- From an event on, `foreach_event2` comes to one of the register whose size it can
tell. -/
inductive ComesTo (md : Md 32) (pcr : Nat) : LoopVars → Bytes → Nat → CbData → Prop where
  | here (vars : LoopVars) (mem : Bytes) (size : Nat) (s : CbData) (layout : Layout)
      (hsize : size ≠ 0) (hparse : parseEvent2 mem size s = .next layout s)
      (hpcr : (header2At mem).pcrIndex = pcr) : ComesTo md pcr vars mem size s
  | later (vars : LoopVars) (mem : Bytes) (size : Nat) (s t : CbData)
      (next : LoopVars × Bytes × Nat) (hsize : size ≠ 0)
      (hstep : event2Step (programContext md) vars mem size s = .next next t)
      (h : ComesTo md pcr next.1 next.2.1 next.2.2 t) : ComesTo md pcr vars mem size s

/-- The same of the loop over the old format, for events that are logged. -/
inductive Sha1ComesTo (md : Md 32) (pcr : Nat) : Bytes → Nat → CbData → Prop where
  | here (mem : Bytes) (size : Nat) (s : CbData) (hsize : size ≠ 0)
      (hparse : parseSha1LogEvent mem size ≠ none) (htype : ofLE (slice mem 4 4) ≠ evNoAction)
      (hpcr : ofLE (slice mem 0 4) = pcr) : Sha1ComesTo md pcr mem size s
  | later (mem next : Bytes) (size eventSize : Nat) (s t u : CbData) (hsize : size ≠ 0)
      (hhead : sha1Head (programContext md) mem size s = .next eventSize t)
      (hdata : deliverData (programContext md) (mem.drop 28) (ofLE (slice mem 4 4))
        (eventSize - 28) t = .next next u)
      (h : Sha1ComesTo md pcr next (size - eventSize) u) : Sha1ComesTo md pcr mem size s

/-- The parser comes to an event of the register in this log. -/
inductive LogComesTo (md : Md 32) (b : EventBuf) (format : Format) (nums : List Nat)
    (pcr : Nat) : Prop where
  | event2 (next : Nat) (hsize : ¬b.log.length < 32)
      (hagile : ofLE (slice b.memory 4 4) = evNoAction)
      (hspecid : specidEvent b.memory b.log.length = some next)
      (h : ComesTo md pcr LoopVars.start (b.memory.drop next) (b.log.length - next)
        (CbData.start format nums))
  | sha1 (hsize : ¬b.log.length < 32) (hagile : ofLE (slice b.memory 4 4) ≠ evNoAction)
      (h : Sha1ComesTo md pcr b.memory b.log.length (CbData.start format nums))

section Loops

variable {md : Md 32} {beyond : Option Int} {nums : List Nat}

theorem outside_none_ne {α : Type} {a : α} {s t : CbData} :
    (outside none : Proc CbData α) t ≠ .next a s := by
  intro h
  cases h

/-- A round the program gets through is one of a register in the arrays. -/
theorem event2Step_safe {vars : LoopVars} {mem : Bytes} {size : Nat} {s t : CbData}
    {next : LoopVars × Bytes × Nat} (hs : Safe nums s) (hvars : Unannounced nums vars)
    (hstep : event2Step (programContext md) vars mem size s = .next next t) :
    ((header2At mem).pcrIndex ∈ nums → (header2At mem).pcrIndex < maxPcrs) ∧
      (header2At mem).pcrIndex < 32 := by
  have hstep' := hstep
  rw [event2Step, bind_apply] at hstep'
  cases hparse : parseEvent2 mem size s with
  | exit r u =>
      rw [hparse] at hstep'
      cases hstep'
  | stop w =>
      rw [hparse] at hstep'
      cases hstep'
  | next layout u =>
      obtain ⟨rfl, -, hpcr, -⟩ := next_of_wlp (parseEvent2_spec mem size s) hparse
      refine ⟨fun hmem => ?_, hpcr⟩
      by_contra hnot
      obtain ⟨u', hout⟩ := event2Step_outside none md hs.asked hvars hparse hmem
        (Nat.le_of_not_lt hnot)
      rw [programContext_none, hstep] at hout
      exact outside_none_ne hout.symm

/-- What such a round leaves. -/
theorem event2Step_keeps {vars : LoopVars} {mem : Bytes} {size : Nat} {s t : CbData}
    {next : LoopVars × Bytes × Nat} (hs : Safe nums s) (hvars : Unannounced nums vars)
    (hstep : event2Step (programContext md) vars mem size s = .next next t) :
    Safe nums t ∧ Unannounced nums next.1 ∧ next.2.2 + 16 ≤ size := by
  obtain ⟨hsafe, hpcr⟩ := event2Step_safe hs hvars hstep
  have hsame := event2Step_sameOn none md vars size hsafe
  refine ⟨hsame.next hs hstep, fun q hq hge hlt => ?_, event2Step_size hstep⟩
  rcases next_of_wlp (event2Step_vector (programContext md) vars mem size s) hstep with
    hvector | hvector
  · rw [hvector]
    exact hvars q hq hge hlt
  · rw [hvector, or_pcrBit hpcr hlt]
    refine ⟨hvars q hq hge hlt, ?_⟩
    rintro rfl
    have hbound := hsafe hq
    omega

/-- The loop that comes to an event of such a register ends at its subscript. -/
theorem event2Loop_outside (beyond : Option Int) {pcr : Nat} {vars : LoopVars} {mem : Bytes}
    {size : Nat} {s : CbData} (h : ComesTo md pcr vars mem size s) (hmem : pcr ∈ nums)
    (hge : maxPcrs ≤ pcr) (hs : Safe nums s) (hvars : Unannounced nums vars) {fuel : Nat}
    (hfuel : size < fuel) : ∃ t : CbData,
      event2Loop (Subscripted.programContext beyond md) fuel vars mem size s =
        outside beyond t := by
  induction h generalizing fuel with
  | here vars mem size s layout hsize hparse hpcr =>
      obtain ⟨fuel, rfl⟩ : ∃ n, fuel = n + 1 := ⟨fuel - 1, by omega⟩
      obtain ⟨t, ht⟩ := event2Step_outside beyond md hs.asked hvars hparse
        (hpcr ▸ hmem) (hpcr ▸ hge)
      refine ⟨t, ?_⟩
      rw [event2Loop, if_neg hsize]
      exact bind_outside ht _
  | later vars mem size s t next hsize hstep h ih =>
      obtain ⟨fuel, rfl⟩ : ∃ n, fuel = n + 1 := ⟨fuel - 1, by omega⟩
      obtain ⟨hsafe', hvars', hless⟩ := event2Step_keeps hs hvars hstep
      obtain ⟨u, hu⟩ := @ih hsafe' hvars' fuel (by omega)
      have hsame := event2Step_sameOn beyond md vars size
        (event2Step_safe hs hvars hstep).1
      refine ⟨u, ?_⟩
      rw [event2Loop, if_neg hsize, bind_apply, hsame.eq hs, hstep]
      exact hu

/-- The loop that comes to none is the program's. -/
theorem event2Loop_same (fuel : Nat) {vars : LoopVars} {mem : Bytes} {size : Nat} {s : CbData}
    (h : ∀ q ∈ nums, maxPcrs ≤ q → ¬ComesTo md q vars mem size s)
    (hs : Safe nums s) (hvars : Unannounced nums vars) :
    event2Loop (Subscripted.programContext beyond md) fuel vars mem size s =
      event2Loop (programContext md) fuel vars mem size s := by
  induction fuel generalizing vars mem size s with
  | zero => rfl
  | succ fuel ih =>
      rw [event2Loop, event2Loop]
      by_cases hsize : size = 0
      · rw [if_pos hsize, if_pos hsize]
      rw [if_neg hsize, if_neg hsize]
      apply bind_eq_bind
      · by_cases hlayout : ∃ layout, parseEvent2 mem size s = .next layout s
        · obtain ⟨layout, hparse⟩ := hlayout
          refine (event2Step_sameOn beyond md vars size fun hmem => ?_).eq hs
          by_contra hnot
          exact h _ hmem (Nat.le_of_not_lt hnot) (.here vars mem size s layout hsize hparse rfl)
        · unfold event2Step
          apply bind_eq_bind rfl
          intro layout t hparse
          obtain ⟨rfl, -⟩ := next_of_wlp (parseEvent2_spec mem size s) hparse
          exact absurd ⟨layout, hparse⟩ hlayout
      · intro next t hnext
        obtain ⟨hsafe', hvars', -⟩ := event2Step_keeps hs hvars hnext
        exact ih (fun q hq hge hcomes => h q hq hge
          (.later vars mem size s t next hsize hnext hcomes)) hsafe' hvars'

theorem sha1Head_safe {mem : Bytes} {size eventSize : Nat} {s t : CbData} (hs : Safe nums s)
    (hhead : sha1Head (programContext md) mem size s = .next eventSize t) :
    ofLE (slice mem 4 4) ≠ evNoAction → ofLE (slice mem 0 4) ∈ nums →
      ofLE (slice mem 0 4) < maxPcrs := by
  intro htype hmem
  by_contra hnot
  have hparse : parseSha1LogEvent mem size ≠ none := by
    intro hnone
    rw [sha1Head, hnone] at hhead
    cases hhead
  obtain ⟨u, hout⟩ := sha1Head_outside none md hs.asked hparse htype hmem
    (Nat.le_of_not_lt hnot)
  rw [programContext_none, hhead] at hout
  exact outside_none_ne hout.symm

theorem sha1Loop_outside (beyond : Option Int) {pcr : Nat} {mem : Bytes} {size : Nat} {s : CbData}
    (h : Sha1ComesTo md pcr mem size s) (hmem : pcr ∈ nums) (hge : maxPcrs ≤ pcr)
    (hs : Safe nums s) {fuel : Nat} (hfuel : size < fuel) :
    ∃ t : CbData, sha1Loop (Subscripted.programContext beyond md) fuel mem size s =
      outside beyond t := by
  induction h generalizing fuel with
  | here mem size s hsize hparse htype hpcr =>
      obtain ⟨fuel, rfl⟩ : ∃ n, fuel = n + 1 := ⟨fuel - 1, by omega⟩
      obtain ⟨t, ht⟩ := sha1Head_outside beyond md hs.asked hparse htype
        (hpcr ▸ hmem) (hpcr ▸ hge)
      refine ⟨t, ?_⟩
      rw [sha1Loop, if_neg hsize]
      exact bind_outside ht _
  | later mem next size eventSize s t u hsize hhead hdata h ih =>
      obtain ⟨fuel, rfl⟩ : ∃ n, fuel = n + 1 := ⟨fuel - 1, by omega⟩
      have hsame := sha1Head_sameOn beyond md size (sha1Head_safe hs hhead)
      have hdeliver : SameOn (Safe nums) _ _ := deliverData_sameOn beyond md (mem.drop 28)
        (ofLE (slice mem 4 4)) (eventSize - 28)
      have ht := hsame.next hs hhead
      have hsizes := sha1Head_size hhead
      obtain ⟨v, hv⟩ := @ih (hdeliver.next ht hdata) fuel (by omega)
      refine ⟨v, ?_⟩
      rw [sha1Loop, if_neg hsize, bind_apply, hsame.eq hs, hhead, andThen_next, bind_apply,
        hdeliver.eq ht, hdata]
      exact hv

theorem sha1Loop_same (fuel : Nat) {mem : Bytes} {size : Nat} {s : CbData}
    (h : ∀ q ∈ nums, maxPcrs ≤ q → ¬Sha1ComesTo md q mem size s) (hs : Safe nums s) :
    sha1Loop (Subscripted.programContext beyond md) fuel mem size s =
      sha1Loop (programContext md) fuel mem size s := by
  induction fuel generalizing mem size s with
  | zero => rfl
  | succ fuel ih =>
      rw [sha1Loop, sha1Loop]
      by_cases hsize : size = 0
      · rw [if_pos hsize, if_pos hsize]
      rw [if_neg hsize, if_neg hsize]
      apply bind_eq_bind
      · by_cases hparse : parseSha1LogEvent mem size = none
        · rw [sha1Head, sha1Head, hparse]
        · refine (sha1Head_sameOn beyond md size fun htype hmem => ?_).eq hs
          by_contra hnot
          exact h _ hmem (Nat.le_of_not_lt hnot) (.here mem size s hsize hparse htype rfl)
      · intro eventSize t hhead
        have ht := (sha1Head_sameOn beyond md size (sha1Head_safe hs hhead)).next hs hhead
        have hdeliver : SameOn (Safe nums) _ _ := deliverData_sameOn beyond md (mem.drop 28)
          (ofLE (slice mem 4 4)) (eventSize - 28)
        apply bind_eq_bind (hdeliver.eq ht)
        intro next u hdata
        exact ih (fun q hq hge hcomes => h q hq hge
          (.later mem next size eventSize s t u hsize hhead hdata hcomes))
          (hdeliver.next ht hdata)

end Loops

/-! ## The whole log -/

section Log

variable {md : Md 32} {beyond : Option Int}

theorem start_safe (format : Format) (nums : List Nat) : Safe nums (CbData.start format nums) :=
  ⟨rfl, fun _ => Nat.zero_lt_succ 23⟩

theorem start_unannounced (nums : List Nat) : Unannounced nums LoopVars.start :=
  fun _ _ _ _ => UInt32.zero_and

/-- The specification event has no action, so its callback does nothing. -/
theorem specidCb_noAction {event : Bytes} (h : ofLE (slice event 4 4) = evNoAction) :
    Subscripted.eventSpecidCb beyond event = pure () := if_neg (by simpa using h)

theorem parseEventlog_outside (beyond : Option Int) {b : EventBuf} {format : Format}
    {nums : List Nat} {pcr : Nat} (h : LogComesTo md b format nums pcr) (hmem : pcr ∈ nums)
    (hge : maxPcrs ≤ pcr) : ∃ t : CbData,
      parseEventlog (Subscripted.programContext beyond md) b.memory b.log.length
        (CbData.start format nums) = outside beyond t := by
  cases h with
  | event2 next hsize hagile hspecid h =>
      obtain ⟨t, ht⟩ := event2Loop_outside beyond h hmem hge (start_safe format nums)
        (start_unannounced nums) (Nat.lt_succ_self _)
      refine ⟨t, ?_⟩
      unfold parseEventlog
      rw [exitIf_neg hsize, pure_bind, if_pos hagile, hspecid]
      show ((Subscripted.eventSpecidCb beyond b.memory >>= _) : Proc CbData Int) _ = _
      rw [specidCb_noAction hagile, pure_bind]
      exact bind_outside ht _
  | sha1 hsize hagile h =>
      obtain ⟨t, ht⟩ := sha1Loop_outside beyond h hmem hge (start_safe format nums)
        (Nat.lt_succ_self _)
      refine ⟨t, ?_⟩
      unfold parseEventlog
      rw [exitIf_neg hsize, pure_bind, if_neg hagile]
      exact bind_outside ht _

theorem parseEventlog_same {b : EventBuf} {format : Format} {nums : List Nat}
    (h : ∀ q ∈ nums, maxPcrs ≤ q → ¬LogComesTo md b format nums q) :
    parseEventlog (Subscripted.programContext beyond md) b.memory b.log.length
        (CbData.start format nums) =
      tpmParseEventlog md b (CbData.start format nums) := by
  unfold tpmParseEventlog parseEventlog
  by_cases hsize : b.log.length < 32
  · rw [exitIf_pos hsize, bind_apply, bind_apply, exit_apply, andThen_exit, andThen_exit]
  rw [exitIf_neg hsize, pure_bind, pure_bind]
  by_cases hagile : ofLE (slice b.memory 4 4) = evNoAction
  · rw [if_pos hagile, if_pos hagile]
    cases hspecid : specidEvent b.memory b.log.length with
    | none => rfl
    | some next =>
        have hloop : foreachEvent2 (Subscripted.programContext beyond md) (b.memory.drop next)
            (b.log.length - next) (CbData.start format nums) =
            foreachEvent2 (programContext md) (b.memory.drop next) (b.log.length - next)
              (CbData.start format nums) :=
          event2Loop_same _ (fun q hq hge hcomes => h q hq hge
            (.event2 next hsize hagile hspecid hcomes)) (start_safe format nums)
            (start_unannounced nums)
        show ((Subscripted.eventSpecidCb beyond b.memory >>= _) : Proc CbData Int) _ =
          ((Subscripted.eventSpecidCb none b.memory >>= _) : Proc CbData Int) _
        rw [specidCb_noAction hagile, specidCb_noAction hagile, pure_bind, pure_bind, bind_apply,
          bind_apply, hloop]
  · have hloop : foreachSha1LogEvent (Subscripted.programContext beyond md) b.memory
        b.log.length (CbData.start format nums) =
        foreachSha1LogEvent (programContext md) b.memory b.log.length
          (CbData.start format nums) :=
      sha1Loop_same _ (fun q hq hge hcomes => h q hq hge (.sha1 hsize hagile hcomes))
        (start_safe format nums)
    rw [if_neg hagile, if_neg hagile, bind_apply, bind_apply, hloop]

end Log

/-! ## The loops of `main` -/

section Output

variable {beyond : Option Int} {nums : List UInt32}

/-- A loop over the numbers that starts its rounds with the subscript ends at the first one
beyond the arrays. -/
theorem subscript_first {α : Type} (beyond : Option Int) {num : UInt32} {rest : List UInt32}
    {f : Unit → Proc MainRun α} {s : MainRun} (h : ∃ m ∈ num :: rest, maxPcrs ≤ m.toNat)
    (hrest : (∃ m ∈ rest, maxPcrs ≤ m.toNat) → ∃ t : MainRun, f () s = outside beyond t) :
    ∃ t : MainRun, (subscript beyond num.toNat >>= f) s = outside beyond t := by
  by_cases hge : maxPcrs ≤ num.toNat
  · rw [subscript_of_ge beyond hge]
    exact ⟨s, bind_outside rfl _⟩
  · rw [subscript_of_lt beyond (Nat.lt_of_not_le hge), pure_bind]
    exact hrest (by simpa [hge] using h)

theorem isLast_outside (beyond : Option Int) (h : ∃ num ∈ nums, maxPcrs ≤ num.toNat) (s : MainRun) :
    ∃ t : MainRun, isLast beyond nums s = outside beyond t := by
  induction nums with
  | nil => simp at h
  | cons num rest ih =>
      rw [isLast]
      apply subscript_first beyond h
      intro hrest
      obtain ⟨t, ht⟩ := ih hrest
      exact ⟨t, bind_outside ht _⟩

theorem isLast_inside (h : ∀ num ∈ nums, num.toNat < maxPcrs) :
    isLast beyond nums = isLast none nums := by
  induction nums with
  | nil => rfl
  | cons num rest ih =>
      have hnum := h num List.mem_cons_self
      rw [isLast, isLast, subscript_of_lt beyond hnum, subscript_of_lt none hnum,
        ih fun m hm => h m (List.mem_cons_of_mem num hm)]

/-- Looking for a later text changes nothing. -/
theorem isLast_next (beyond : Option Int) (h : ∀ num ∈ nums, num.toNat < maxPcrs) (s : MainRun) :
    ∃ last, isLast beyond nums s = .next last s := by
  induction nums with
  | nil => exact ⟨true, rfl⟩
  | cons num rest ih =>
      obtain ⟨last, hlast⟩ := ih fun m hm => h m (List.mem_cons_of_mem num hm)
      refine ⟨(s.cb.eventlog num.toNat).isNone && last, ?_⟩
      rw [isLast, subscript_of_lt beyond (h num List.mem_cons_self), pure_bind, bind_apply,
        getState_apply, andThen_next, bind_apply, hlast]
      rfl

theorem printLogs_outside (h : ∃ num ∈ nums, maxPcrs ≤ num.toNat) (s : MainRun) :
    ∃ t : MainRun, printLogs beyond nums s = outside beyond t := by
  cases nums with
  | nil => simp at h
  | cons num rest =>
      rw [printLogs]
      by_cases hrest : ∃ m ∈ rest, maxPcrs ≤ m.toNat
      · obtain ⟨t, ht⟩ := isLast_outside beyond hrest s
        exact ⟨t, bind_outside ht _⟩
      · have hin : ∀ m ∈ rest, m.toNat < maxPcrs := by simpa using hrest
        have hge : maxPcrs ≤ num.toNat := by
          rcases h with ⟨m, hm, hge⟩
          rcases List.mem_cons.mp hm with rfl | hm
          · exact hge
          · exact absurd hge (Nat.not_le_of_lt (hin m hm))
        obtain ⟨last, hlast⟩ := isLast_next beyond hin s
        refine ⟨s, ?_⟩
        rw [bind_apply, hlast, andThen_next, subscript_of_ge beyond hge]
        exact bind_outside rfl _

theorem printLogs_inside (h : ∀ num ∈ nums, num.toNat < maxPcrs) :
    printLogs beyond nums = printLogs none nums := by
  induction nums with
  | nil => rfl
  | cons num rest ih =>
      have hnum := h num List.mem_cons_self
      have hrest : ∀ m ∈ rest, m.toNat < maxPcrs := fun m hm => h m (List.mem_cons_of_mem num hm)
      rw [printLogs, printLogs, subscript_of_lt beyond hnum, subscript_of_lt none hnum,
        isLast_inside hrest, ih hrest]

theorem summaryLoop_outside (format : Format) (h : ∃ num ∈ nums, maxPcrs ≤ num.toNat)
    (s : MainRun) : ∃ t : MainRun, summaryLoop beyond format nums s = outside beyond t := by
  induction nums generalizing s with
  | nil => simp at h
  | cons num rest ih =>
      rw [summaryLoop]
      apply subscript_first beyond h
      intro hrest
      have hne : rest ≠ [] := by
        rintro rfl
        simp at hrest
      rw [bind_apply, getState_apply, andThen_next]
      cases format with
      | json =>
          obtain ⟨t, ht⟩ := ih hrest _
          refine ⟨t, ?_⟩
          rw [when, if_pos hne]
          exact ht
      | text =>
          obtain ⟨t, ht⟩ := ih hrest _
          exact ⟨t, ht⟩

theorem summaryLoop_inside (format : Format) (h : ∀ num ∈ nums, num.toNat < maxPcrs) :
    summaryLoop beyond format nums = summaryLoop none format nums := by
  induction nums with
  | nil => rfl
  | cons num rest ih =>
      have hnum := h num List.mem_cons_self
      rw [summaryLoop, summaryLoop, subscript_of_lt beyond hnum, subscript_of_lt none hnum,
        ih fun m hm => h m (List.mem_cons_of_mem num hm)]

theorem subscripts_outside (beyond : Option Int) (h : ∃ num ∈ nums, maxPcrs ≤ num.toNat)
    (s : MainRun) : ∃ t : MainRun, forEach (fun num => subscript beyond (UInt32.toNat num)) nums s =
      outside beyond t := by
  induction nums with
  | nil => simp at h
  | cons num rest ih =>
      rw [forEach]
      exact subscript_first beyond h ih

theorem subscripts_inside (h : ∀ num ∈ nums, num.toNat < maxPcrs) :
    forEach (fun num => (subscript beyond (UInt32.toNat num) : Proc MainRun Unit)) nums =
      pure () := by
  induction nums with
  | nil => rfl
  | cons num rest ih =>
      rw [forEach, subscript_of_lt beyond (h num List.mem_cons_self), pure_bind]
      exact ih fun m hm => h m (List.mem_cons_of_mem num hm)

end Output

section Output

variable {beyond : Option Int} {sha256 : Md 32} {opts : Options}

/-- Some output was asked for. -/
def Options.Prints (opts : Options) : Prop :=
  opts.printEventlog = true ∨ opts.printSummary = true ∨ opts.printAggregate = true

/-- A block in JSON brackets. -/
theorem bracketed_outside (beyond : Option Int) (format : Format) (first last : Bytes)
    {m : Proc MainRun Unit} (h : ∀ s, ∃ t : MainRun, m s = outside beyond t) (s : MainRun) :
    ∃ t : MainRun, (do
      when (format = Format.json) (update (MainRun.print first))
      m
      when (format = Format.json) (update (MainRun.print last)) : Proc MainRun Unit) s =
        outside beyond t := by
  cases format with
  | json =>
      obtain ⟨t, ht⟩ := h (s.print first)
      exact ⟨t, bind_outside ht _⟩
  | text =>
      obtain ⟨t, ht⟩ := h s
      exact ⟨t, bind_outside ht _⟩

/-- Each of the three outputs uses every number as a subscript. -/
theorem printOutput_outside (beyond : Option Int) (hprints : opts.Prints)
    (h : ∃ num ∈ opts.pcrNums, maxPcrs ≤ num.toNat) (s : MainRun) :
    ∃ t : MainRun, printOutput beyond sha256 opts s = outside beyond t := by
  unfold printOutput
  by_cases heventlog : opts.printEventlog = true
  · obtain ⟨t, ht⟩ := bracketed_outside beyond opts.format (ascii "[") (ascii "]\n")
      (printLogs_outside h) s
    rw [when, if_pos heventlog]
    exact ⟨t, bind_outside ht _⟩
  rw [when, if_neg heventlog, pure_bind]
  by_cases hsummary : opts.printSummary = true
  · obtain ⟨t, ht⟩ := bracketed_outside beyond opts.format (ascii "[") (ascii "]\n")
      (summaryLoop_outside opts.format h) s
    rw [when, if_pos hsummary]
    exact ⟨t, bind_outside ht _⟩
  rw [when, if_neg hsummary, pure_bind]
  have haggregate : opts.printAggregate = true :=
    (hprints.resolve_left heventlog).resolve_left hsummary
  obtain ⟨t, ht⟩ := subscripts_outside beyond h s
  rw [when, if_pos haggregate]
  exact ⟨t, bind_outside (bind_outside ht _) _⟩

theorem printOutput_inside (h : ∀ num ∈ opts.pcrNums, num.toNat < maxPcrs) :
    printOutput beyond sha256 opts = printOutput none sha256 opts := by
  unfold printOutput printEventlog printSummary printAggregate
  rw [printLogs_inside h, summaryLoop_inside opts.format h, subscripts_inside h,
    subscripts_inside h]

theorem printOutput_silent (h : ¬opts.Prints) :
    printOutput beyond sha256 opts = pure 0 := by
  unfold Options.Prints at h
  rw [not_or, not_or] at h
  unfold printOutput
  rw [when, when, when, if_neg h.1, if_neg h.2.1, if_neg h.2.2]
  rfl

end Output

/-! ## Subscripts in range -/

def MainRun.start : MainRun := ⟨CbData.start .text [], []⟩

/-- What a subscript beyond the arrays does makes no difference: the run evaluates none. -/
def SubscriptsInRange (sha256 : Md 32) (logs : Bytes → Option EventBuf) (argv : List Bytes) :
    Prop :=
  ∀ status, run (main (some status) sha256 logs argv) MainRun.start =
    run (main none sha256 logs argv) MainRun.start

/-- The parser accepts the log. -/
def LogAccepted (sha256 : Md 32) (opts : Options) (b : EventBuf) : Prop :=
  ∃ t, run (tpmParseEventlog sha256 b) (CbData.start opts.format opts.nums) = .ok (1, t)

/-- A number that is in the arrays, or one the run has no use for: the parser comes to no
event of that register, and the log is rejected or no output was asked for. -/
def NumHarmless (sha256 : Md 32) (opts : Options) (b : EventBuf) (num : UInt32) : Prop :=
  num.toNat < maxPcrs ∨
    ¬LogComesTo sha256 b opts.format opts.nums num.toNat ∧
      (¬opts.Prints ∨ ¬LogAccepted sha256 opts b)

theorem Options.mem_nums {opts : Options} {num : UInt32} (h : num ∈ opts.pcrNums) :
    num.toNat ∈ opts.nums := List.mem_map.mpr ⟨num, h, rfl⟩

section Exact

variable {sha256 : Md 32} {opts : Options} {b : EventBuf}

/-- A parser that uses a subscript beyond the arrays shows it in what `main` returns. -/
theorem printLog_comesTo {num : UInt32} (hnum : num ∈ opts.pcrNums) (hge : maxPcrs ≤ num.toNat)
    (h : LogComesTo sha256 b opts.format opts.nums num.toNat) :
    run (printLog (some (-1)) sha256 opts b) MainRun.start ≠
      run (printLog none sha256 opts b) MainRun.start := by
  obtain ⟨t, ht⟩ := parseEventlog_outside (some (-1)) h (Options.mem_nums hnum) hge
  obtain ⟨u, hu⟩ := parseEventlog_outside none h (Options.mem_nums hnum) hge
  have hleaves : run (printLog (some (-1)) sha256 opts b) MainRun.start =
      .ok (-1, MainRun.start.setCb t) := by
    have hrun : run (parseEventlog (Subscripted.programContext (some (-1)) sha256) b.memory
        b.log.length) (CbData.start opts.format opts.nums) = .ok (-1, t) := by
      rw [run, ht]
      rfl
    rw [printLog, inner_of_run hrun, pure_bind]
    rfl
  have hfaults : run (printLog none sha256 opts b) MainRun.start = .error .fault := by
    rw [printLog, run, bind_apply, Proc.inner, run, hu]
    rfl
  rw [hleaves, hfaults]
  intro heq
  cases heq

/-- Otherwise the parser leaves what it leaves in the program. -/
theorem printLog_same (beyond : Option Int)
    (h : ∀ num ∈ opts.pcrNums, maxPcrs ≤ num.toNat →
      ¬LogComesTo sha256 b opts.format opts.nums num.toNat) :
    printLog beyond sha256 opts b = (do
      let parsed ← inner (tpmParseEventlog sha256 b) (CbData.start opts.format opts.nums)
      update (MainRun.setCb parsed.2)
      exitIf (parsed.1 ≠ 1) (-1)
      printOutput beyond sha256 opts) := by
  have hparse : parseEventlog (Subscripted.programContext beyond sha256) b.memory b.log.length
      (CbData.start opts.format opts.nums) =
      tpmParseEventlog sha256 b (CbData.start opts.format opts.nums) := by
    apply parseEventlog_same
    intro q hq hge hcomes
    obtain ⟨num, hnum, rfl⟩ := List.mem_map.mp hq
    exact h num hnum hge hcomes
  unfold printLog
  rw [Proc.inner, Proc.inner, run, run, hparse]

theorem printLog_accepted (beyond : Option Int) {t : CbData}
    (h : ∀ num ∈ opts.pcrNums, maxPcrs ≤ num.toNat →
      ¬LogComesTo sha256 b opts.format opts.nums num.toNat)
    (hrun : run (tpmParseEventlog sha256 b) (CbData.start opts.format opts.nums) = .ok (1, t)) :
    run (printLog beyond sha256 opts b) MainRun.start =
      run (printOutput beyond sha256 opts) (MainRun.start.setCb t) := by
  rw [printLog_same beyond h, inner_of_run hrun, pure_bind]
  rfl

/-- A log that is turned down is turned down before any output. -/
theorem printLog_rejected (h : ∀ num ∈ opts.pcrNums, maxPcrs ≤ num.toNat →
      ¬LogComesTo sha256 b opts.format opts.nums num.toNat)
    (hrejected : ¬LogAccepted sha256 opts b) (beyond : Option Int) :
    run (printLog beyond sha256 opts b) MainRun.start =
      run (printLog none sha256 opts b) MainRun.start := by
  rw [printLog_same beyond h, printLog_same none h]
  cases hrun : run (tpmParseEventlog sha256 b) (CbData.start opts.format opts.nums) with
  | error w =>
      rw [Proc.inner, hrun]
      rfl
  | ok result =>
      obtain ⟨r, t⟩ := result
      have hr : r ≠ 1 := by
        rintro rfl
        exact hrejected ⟨t, hrun⟩
      rw [inner_of_run hrun, pure_bind, pure_bind, exitIf_pos hr]
      rfl

theorem printOutput_distinct (hprints : opts.Prints)
    (h : ∃ num ∈ opts.pcrNums, maxPcrs ≤ num.toNat) (s : MainRun) :
    run (printOutput (some (-1)) sha256 opts) s ≠ run (printOutput none sha256 opts) s := by
  obtain ⟨t, ht⟩ := printOutput_outside (some (-1)) hprints h s
  obtain ⟨u, hu⟩ := printOutput_outside none hprints h s
  rw [run, run, ht, hu]
  intro heq
  cases heq

theorem printLog_iff : (∀ status, run (printLog (some status) sha256 opts b) MainRun.start =
      run (printLog none sha256 opts b) MainRun.start) ↔
    ∀ num ∈ opts.pcrNums, NumHarmless sha256 opts b num := by
  constructor
  · intro h num hnum
    by_cases hlt : num.toNat < maxPcrs
    · exact Or.inl hlt
    have hge : maxPcrs ≤ num.toNat := Nat.le_of_not_lt hlt
    have hnone : ∀ q ∈ opts.pcrNums, maxPcrs ≤ q.toNat →
        ¬LogComesTo sha256 b opts.format opts.nums q.toNat :=
      fun q hq hge hcomes => printLog_comesTo hq hge hcomes (h (-1))
    have hunused : ¬opts.Prints ∨ ¬LogAccepted sha256 opts b := by
      by_contra hused
      rw [not_or, not_not, not_not] at hused
      obtain ⟨hprints, t, hrun⟩ := hused
      have hsame := h (-1)
      rw [printLog_accepted _ hnone hrun, printLog_accepted _ hnone hrun] at hsame
      exact printOutput_distinct hprints ⟨num, hnum, hge⟩ _ hsame
    exact Or.inr ⟨hnone num hnum hge, hunused⟩
  · intro h status
    have hnone : ∀ q ∈ opts.pcrNums, maxPcrs ≤ q.toNat →
        ¬LogComesTo sha256 b opts.format opts.nums q.toNat := by
      intro q hq hge
      rcases h q hq with hlt | ⟨hnot, -⟩
      · omega
      · exact hnot
    by_cases hall : ∀ num ∈ opts.pcrNums, num.toNat < maxPcrs
    · rw [printLog_same _ hnone, printLog_same _ hnone, printOutput_inside hall]
    · simp only [not_forall, not_lt] at hall
      obtain ⟨num, hnum, hge⟩ := hall
      rcases h num hnum with hlt | ⟨-, hsilent | hrejected⟩
      · omega
      · rw [printLog_same _ hnone, printLog_same _ hnone, printOutput_silent hsilent,
          printOutput_silent hsilent]
      · exact printLog_rejected hnone hrejected _

end Exact

/-- No subscript leaves the arrays exactly if every number is harmless, once `main` has read
its arguments and the log. -/
theorem subscriptsInRange_iff (sha256 : Md 32) (logs : Bytes → Option EventBuf)
    (argv : List Bytes) :
    SubscriptsInRange sha256 logs argv ↔
      ∀ opts b, readOptions argv Options.start = some opts →
        logs (opts.inputFile.getD biosMeasurements) = some b →
        ∀ num ∈ opts.pcrNums, NumHarmless sha256 opts b num := by
  unfold SubscriptsInRange main
  cases hread : readOptions argv Options.start with
  | none =>
      refine iff_of_true (fun _ => rfl) ?_
      intro opts b hopts
      cases hopts
  | some opts =>
      cases hlog : logs (opts.inputFile.getD biosMeasurements) with
      | none =>
          refine iff_of_true (fun _ => ?_) ?_
          · simp only [hlog]
          · rintro _ b ⟨⟩ hb
            rw [hlog] at hb
            cases hb
      | some b =>
          simp only [hlog]
          by_cases hempty : opts.pcrNums = []
          · refine iff_of_true (fun _ => ?_) ?_
            · rw [exitIf_pos hempty]
              rfl
            · rintro _ _ ⟨⟩ - num hnum
              rw [hempty] at hnum
              cases hnum
          · simp only [exitIf_neg hempty, pure_bind]
            constructor
            · rintro h _ b' ⟨⟩ hb
              rw [hlog] at hb
              cases hb
              exact printLog_iff.mp h
            · intro h
              exact printLog_iff.mpr (h opts b rfl hlog)

/-- `--pcrs 24 --summary`. -/
def summaryOf24 : List Bytes := [ascii "--pcrs", ascii "24", ascii "--summary"]

/-- Every file is a log of a specification event. -/
def specidOnly (_ : Bytes) : Option EventBuf := some (shortBuf specidLog (by decide))

/-- No event has been parsed, and the summary reads a value behind `calc_pcrs`. -/
theorem not_subscriptsInRange_summary :
    ¬∀ (sha256 : Md 32) (logs : Bytes → Option EventBuf) (argv : List Bytes),
      SubscriptsInRange sha256 logs argv := by
  intro hall
  have hrange := hall Sha256.sha256 specidOnly summaryOf24 (-1)
  have hfaults : (run (main none Sha256.sha256 specidOnly summaryOf24) MainRun.start).map
      (·.1) = .error .fault := by rfl
  have hleaves : (run (main (some (-1)) Sha256.sha256 specidOnly summaryOf24)
      MainRun.start).map (·.1) = .ok (-1) := by rfl
  rw [hrange, hfaults] at hleaves
  cases hleaves

end MeasuredBoot.SrtmLog
