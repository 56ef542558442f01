import MeasuredBoot.Lib.CText
import MeasuredBoot.Lib.Proc

/-! # Hexadecimal arguments

`convert_hex_to_bin` and `convert_bin_to_hex` of `common/common.c`. The output buffer of the
first is given with what it holds, since a pair that `sscanf` does not match leaves its byte
as it is.
-/

namespace MeasuredBoot

open Binary Imperative

/-- The characters the filter lets through. Between the digits and the upper-case letters
it stops one too early: `@` passes. -/
def passesHexFilter (c : UInt8) : Bool :=
  !(c < 0x30 || c > 0x66 || (c > 0x39 && c < 0x40) || (c > 0x46 && c < 0x61))

/-- `sscanf(pos, "%2hhx", &out[i])` on two characters that pass the filter: the number they
start with, if any. -/
def sscanfHex (first second old : UInt8) : UInt8 :=
  match hexDigitValue first, hexDigitValue second with
  | some high, some low => UInt8.ofNat (16 * high + low)
  | some digit, none => UInt8.ofNat digit
  | none, _ => old

/-- The loop over the pairs: the status, and the buffer as it leaves it. -/
def convertPairs : Bytes → Bytes → Int × Bytes
  | first :: second :: pos, old :: out =>
      if !passesHexFilter first || !passesHexFilter second then (-3, old :: out)
      else
        let rest := convertPairs pos out
        (rest.1, sscanfHex first second old :: rest.2)
  | _, out => (0, out)

/-- The digits behind the prefix. -/
def hexStart (input : Bytes) : Bytes := if input.take 2 = ascii "0X" then input.drop 2 else input

/-- `convert_hex_to_bin`: the status and the buffer, or none where the assertion aborts. -/
def convertHexToBin (input out : Bytes) : Option (Int × Bytes) :=
  if input.length < 2 then none
  else
    let pos := hexStart input
    if pos.length % 2 ≠ 0 then some (-1, out)
    else if out.length ≠ pos.length / 2 then some (-2, out)
    else some (convertPairs pos out)

/-- The loop of `convert_bin_to_hex` from the index `i` on. `snprintf` writes two digits and
a NUL; the offset is an `int`. -/
def writeHexPairs (hex : Bytes) (i : Nat) : Bytes → Except Stop Bytes
  | [] => .ok hex
  | b :: bin =>
      if 2 ^ 31 ≤ i * 2 then .error .fault
      else writeHexPairs (overwrite hex (i * 2) ((hexPadded 2 b.toNat).take 2 ++ [0])) (i + 1) bin

/-- `convert_bin_to_hex`: the string, or none where it returns `NULL`. -/
def convertBinToHex (allocates : Bool) (bin : Bytes) : Except Stop (Option Bytes) :=
  if !allocates then .ok none
  else (writeHexPairs (zeros (bin.length * 2 + 1)) 0 bin).map fun hex => some (cString hex)

/-! ## Hexadecimal text -/

theorem passesHexFilter_of_digit {c : UInt8} {value : Nat} (h : hexDigitValue c = some value) :
    passesHexFilter c = true := by
  unfold hexDigitValue at h
  unfold passesHexFilter
  simp only [UInt8.le_iff_toNat_le, UInt8.lt_iff_toNat_lt, gt_iff_lt, UInt8.reduceToNat] at h ⊢
  grind

/-- A text of digits is decoded, whatever the buffer held. -/
theorem convertPairs_of_readHex {pos data out : Bytes} (h : readHex pos = some data)
    (hout : out.length = data.length) : convertPairs pos out = (0, data) := by
  induction pos using readHex.induct generalizing data out with
  | case1 =>
      cases h
      rw [List.eq_nil_of_length_eq_zero hout]
      rfl
  | case2 c => cases h
  | case3 first second pos ih =>
      simp only [readHex, Option.bind_eq_bind, Option.bind_eq_some_iff] at h
      obtain ⟨high, hhigh, low, hlow, bytes, hbytes, hdata⟩ := h
      cases hdata
      cases out with
      | nil => cases hout
      | cons old out =>
          have hrest := ih hbytes (Nat.succ.inj hout)
          have hfirst := passesHexFilter_of_digit hhigh
          have hsecond := passesHexFilter_of_digit hlow
          simp [convertPairs, hfirst, hsecond, hrest, sscanfHex, hhigh, hlow]

/-- Digits are not taken for the prefix. -/
theorem hexStart_of_readHex {input data : Bytes} (h : readHex input = some data) :
    hexStart input = input := by
  unfold hexStart
  rw [if_neg]
  intro hprefix
  cases input with
  | nil => cases hprefix
  | cons first input =>
      cases input with
      | nil => cases hprefix
      | cons second input =>
          have hsecond : second = 88 := by
            simp only [List.take_succ_cons, List.take_zero] at hprefix
            exact (List.cons.inj (List.cons.inj hprefix).2).1
          subst hsecond
          have hdigit : hexDigitValue 88 = none := by decide
          simp [readHex, hdigit] at h

theorem convertHexToBin_of_readHex {input data out : Bytes} (h : readHex input = some data)
    (hne : data ≠ []) (hout : out.length = data.length) :
    convertHexToBin input out = some (0, data) := by
  have hlen := readHex_length h
  have hpos : 0 < data.length := List.length_pos_iff.mpr hne
  unfold convertHexToBin
  rw [if_neg (by omega), hexStart_of_readHex h]
  dsimp only
  rw [if_neg (by omega), if_neg (by omega), convertPairs_of_readHex h hout]

/-! ## What is accepted -/

/-- The filter lets the digits and `@` through. -/
theorem passesHexFilter_iff {c : UInt8} :
    passesHexFilter c = true ↔ (hexDigitValue c).isSome ∨ c = 64 := by
  unfold passesHexFilter hexDigitValue
  simp only [UInt8.le_iff_toNat_le, UInt8.lt_iff_toNat_lt, gt_iff_lt, UInt8.reduceToNat,
    ← UInt8.toNat_inj]
  grind

theorem convertPairs_eq_zero_iff {pos out : Bytes} (h : pos.length = 2 * out.length) :
    (convertPairs pos out).1 = 0 ↔ ∀ c ∈ pos, passesHexFilter c = true := by
  induction pos using readHex.induct generalizing out with
  | case1 => simp [convertPairs]
  | case2 c =>
      rw [List.length_singleton] at h
      omega
  | case3 first second pos ih =>
      cases out with
      | nil => cases h
      | cons old out =>
          have hlen : pos.length = 2 * out.length := by
            simp only [List.length_cons] at h
            omega
          have hrest := ih hlen
          simp only [convertPairs, List.forall_mem_cons]
          cases passesHexFilter first <;> cases passesHexFilter second <;> simp [hrest]

/-- `count` bytes with two digits each. -/
def Hexadecimal (pos : Bytes) (count : Nat) : Prop :=
  pos.length = 2 * count ∧ ∀ c ∈ pos, (hexDigitValue c).isSome

theorem Hexadecimal.readHex {pos : Bytes} {count : Nat} (h : Hexadecimal pos count) :
    ∃ data, readHex pos = some data ∧ data.length = count := by
  obtain ⟨hlen, hdigits⟩ := h
  obtain ⟨data, hdata⟩ := exists_readHex (by omega) hdigits
  have hcount := readHex_length hdata
  exact ⟨data, hdata, by omega⟩

theorem convertHexToBin_spec {input : Bytes} (h : 2 ≤ input.length) (out : Bytes) :
    ∃ ret data, convertHexToBin input out = some (ret, data) ∧
      (ret = 0 ↔ (hexStart input).length = 2 * out.length ∧
        ∀ c ∈ hexStart input, passesHexFilter c = true) ∧
      (Hexadecimal (hexStart input) out.length → readHex (hexStart input) = some data) := by
  unfold convertHexToBin
  simp only [if_neg (Nat.not_lt.mpr h)]
  by_cases hlen : (hexStart input).length = 2 * out.length
  · rw [if_neg (by omega), if_neg (by omega)]
    refine ⟨_, _, rfl, ?_, ?_⟩
    · rw [convertPairs_eq_zero_iff hlen]
      exact (and_iff_right hlen).symm
    · intro hhex
      obtain ⟨data, hdata, hcount⟩ := hhex.readHex
      rw [convertPairs_of_readHex hdata hcount.symm]
      exact hdata
  · have hfails : ∀ ret : Int, ret ≠ 0 → (ret = 0 ↔ (hexStart input).length = 2 * out.length ∧
        ∀ c ∈ hexStart input, passesHexFilter c = true) := by
      intro ret hret
      simp [hret, hlen]
    have hvacuous : ∀ data, Hexadecimal (hexStart input) out.length →
        readHex (hexStart input) = some data := fun data hhex => absurd hhex.1 hlen
    split
    · exact ⟨-1, out, rfl, hfails _ (by decide), hvacuous out⟩
    · rw [if_pos (by omega)]
      exact ⟨-2, out, rfl, hfails _ (by decide), hvacuous out⟩

/-- Text behind an optional prefix is accepted if and only if it is hexadecimal and of the
right length, and then each byte stored has the value of its two digits. -/
def AcceptsExactlyHex (input : Bytes) (outlen : Nat) : Prop :=
  2 ≤ input.length → ∀ out : Bytes, out.length = outlen →
    ∃ ret data, convertHexToBin input out = some (ret, data) ∧
      (ret = 0 ↔ Hexadecimal (hexStart input) outlen) ∧
      (ret = 0 → ∀ i < outlen, data[i]?.map UInt8.toNat =
        some (16 * digitAt (hexStart input) (2 * i) + digitAt (hexStart input) (2 * i + 1)))

/-- Text of the right length with `@` in the place of a digit. -/
def AtForDigit (pos : Bytes) (count : Nat) : Prop :=
  pos.length = 2 * count ∧ (∀ c ∈ pos, (hexDigitValue c).isSome ∨ c = 64) ∧ 64 ∈ pos

theorem acceptsExactlyHex_iff (input : Bytes) (outlen : Nat) :
    AcceptsExactlyHex input outlen ↔ ¬AtForDigit (hexStart input) outlen := by
  constructor
  · intro haccepts ⟨hlen, hchars, hmem⟩
    have hstart : (hexStart input).length ≤ input.length := by
      unfold hexStart
      split
      · rw [List.length_drop]
        omega
      · exact Nat.le_refl _
    have hpos := List.length_pos_of_mem hmem
    have htwo : 2 ≤ input.length := by omega
    have hzeros := zeros_length outlen
    obtain ⟨ret, data, hconvert, hret, -⟩ := haccepts htwo (zeros outlen) hzeros
    obtain ⟨ret', data', hconvert', hret', -⟩ := convertHexToBin_spec htwo (zeros outlen)
    rw [hconvert] at hconvert'
    cases hconvert'
    rw [hzeros] at hret'
    have hzero := hret'.mpr ⟨hlen, fun c hc => passesHexFilter_iff.mpr (hchars c hc)⟩
    have hdigit := (hret.mp hzero).2 64 hmem
    exact absurd hdigit (by decide)
  · intro hclean htwo out hout
    subst hout
    obtain ⟨ret, data, hconvert, hret, hread⟩ := convertHexToBin_spec htwo out
    have hhex : ret = 0 ↔ Hexadecimal (hexStart input) out.length := by
      rw [hret]
      constructor
      · intro ⟨hlen, hfilter⟩
        refine ⟨hlen, fun c hc => ?_⟩
        have hchars := fun c hc => passesHexFilter_iff.mp (hfilter c hc)
        rcases hchars c hc with hdigit | hat
        · exact hdigit
        · subst hat
          exact absurd ⟨hlen, hchars, hc⟩ hclean
      · intro ⟨hlen, hdigits⟩
        exact ⟨hlen, fun c hc => passesHexFilter_iff.mpr (Or.inl (hdigits c hc))⟩
    refine ⟨ret, data, hconvert, hhex, fun hzero i hi => ?_⟩
    have hdata := hread (hhex.mp hzero)
    have hlen := readHex_length hdata
    have hcount := (hhex.mp hzero).1
    exact readHex_getElem? hdata (by omega)

/-- `@@` is accepted. -/
theorem not_acceptsExactlyHex_at : ¬AcceptsExactlyHex (ascii "@@") 1 := by
  intro haccepts
  obtain ⟨ret, data, hconvert, hret, -⟩ := haccepts (by decide) [0] rfl
  have hrun : convertHexToBin (ascii "@@") [0] = some (0, [0]) := by decide
  rw [hrun] at hconvert
  cases hconvert
  have hdigit := (hret.mp rfl).2 64 (by decide)
  exact absurd hdigit (by decide)

/-! ## The round trip -/

/-- The text of the bytes done so far, and zeros. -/
theorem writeHexPairs_eq (done bin : Bytes) (h : done.length + bin.length ≤ 2 ^ 30) :
    writeHexPairs (hexText done ++ zeros (bin.length * 2 + 1)) done.length bin
      = .ok (hexText (done ++ bin) ++ [0]) := by
  induction bin generalizing done with
  | nil =>
      rw [List.append_nil]
      rfl
  | cons b bin ih =>
      have hlen := hexText_length done
      have hzeros : zeros ((b :: bin).length * 2 + 1) = zeros 3 ++ zeros (bin.length * 2) := by
        rw [zeros, zeros, zeros, ← List.replicate_add, List.length_cons]
        congr 1
        omega
      have hdone : hexText (done ++ [b]) =
          hexText done ++ [hexDigit (b.toNat / 16), hexDigit (b.toNat % 16)] := by
        rw [hexText, List.flatMap_append]
        rfl
      have hwrite : overwrite (hexText done ++ zeros ((b :: bin).length * 2 + 1))
          (done.length * 2) ((hexPadded 2 b.toNat).take 2 ++ [0])
            = hexText (done ++ [b]) ++ zeros (bin.length * 2 + 1) := by
        rw [hzeros, ← List.append_assoc, overwrite_middle (by omega) (by simp [hexPadded_two]),
          hexPadded_two, hdone]
        simp [zeros, List.replicate_succ]
      have hnext : done.length + 1 = (done ++ [b]).length := by simp
      have hbound : (done ++ [b]).length + bin.length ≤ 2 ^ 30 := by
        simp only [List.length_append, List.length_cons, List.length_nil] at h ⊢
        omega
      have hint : ¬2 ^ 31 ≤ done.length * 2 := by
        simp only [List.length_cons] at h
        omega
      rw [writeHexPairs, if_neg hint, hwrite, hnext, ih (done ++ [b]) hbound, List.append_assoc]
      rfl

theorem hexText_nul_free (bytes : Bytes) : (0 : UInt8) ∉ hexText bytes := by
  have hdigit : ∀ n < 16, hexDigit n ≠ 0 := by decide
  intro hmem
  obtain ⟨b, -, hb⟩ := List.mem_flatMap.mp hmem
  have hb256 := b.toNat_lt
  simp only [List.mem_cons, List.not_mem_nil, or_false] at hb
  rcases hb with hb | hb
  · exact hdigit (b.toNat / 16) (by omega) hb.symm
  · exact hdigit (b.toNat % 16) (by omega) hb.symm

theorem convertBinToHex_eq {bin : Bytes} (h : bin.length ≤ 2 ^ 30) :
    convertBinToHex true bin = .ok (some (hexText bin)) := by
  have hloop := writeHexPairs_eq [] bin (by simpa using h)
  simp only [hexText, List.flatMap_nil, List.nil_append, List.length_nil] at hloop
  rw [convertBinToHex, if_neg (by decide), hloop]
  show Except.ok (some (cString (hexText bin ++ [0]))) = _
  rw [cString_append_nul_self (hexText_nul_free bin)]

/-- What is written is read back, and never taken to start with the prefix. -/
theorem convertHexToBin_convertBinToHex {bin : Bytes} (hne : bin ≠ []) (h : bin.length < 2 ^ 30) :
    ∃ hex, convertBinToHex true bin = .ok (some hex) ∧ hex.length = 2 * bin.length ∧
      hex.take 2 ≠ ascii "0X" ∧
      ∀ out : Bytes, out.length = bin.length → convertHexToBin hex out = some (0, bin) := by
  have hread := readHex_hexText bin
  refine ⟨hexText bin, convertBinToHex_eq (Nat.le_of_lt h), hexText_length bin, ?_, ?_⟩
  · intro hprefix
    have hstart := hexStart_of_readHex hread
    rw [hexStart, if_pos hprefix] at hstart
    have hlen := congrArg List.length hstart
    have hpos := List.length_pos_iff.mpr hne
    rw [List.length_drop, hexText_length] at hlen
    omega
  · intro out hout
    exact convertHexToBin_of_readHex hread hne hout

theorem convertHexToBin_convertBinToHex_two :
    ∃ hex, convertBinToHex true [0, 0xab] = .ok (some hex) ∧ hex.length = 2 * 2 ∧
      hex.take 2 ≠ ascii "0X" ∧
      ∀ out : Bytes, out.length = 2 → convertHexToBin hex out = some (0, [0, 0xab]) :=
  convertHexToBin_convertBinToHex (by decide) (by decide)

end MeasuredBoot
