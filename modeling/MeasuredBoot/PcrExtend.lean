import MeasuredBoot.Common.Hash
import MeasuredBoot.Common.Hex
import MeasuredBoot.Lib.Proc

/-! # pcr-extend

`main` of `pcr-extend/main.c`: the digests given as options are converted, then extended
one after the other into a register of zeros.
-/

namespace MeasuredBoot.PcrExtend

open Binary Imperative Imperative.Proc

/-- What the allocator does: whether the copy of the `k`th option, the two arrays for the
`n`th input and its buffer can be allocated, what the fresh buffer holds, and how many bytes
`realloc` really provides for the array of lengths. -/
structure Heap where
  strAllocated : Nat → Bool
  inputsAllocated : Nat → Bool
  lensAllocated : Nat → Bool
  inputAllocated : Nat → Bool
  fresh : Nat → Nat → UInt8
  lensRoom : Nat → Nat

/-- The variables of `main` and what it printed with `print_data`; an input whose buffer
could not be allocated is none. -/
structure State where
  inputs : List (Option Bytes)
  ret : Int
  pcr : Digest 32
  printed : List (Bytes × Bytes)

def State.start : State := ⟨[], -1, zeroDigest 32, []⟩

def printData (data info : Bytes) : Proc State Unit :=
  update fun s => { s with printed := s.printed ++ [(data, info)] }

/-- `goto out`. -/
def leave : Proc State Unit := do
  let s ← getState
  exit s.ret

/-- `abort` ends the program; a shell sees `128 + SIGABRT`. -/
def abort : Proc State Unit := exit 134

/-! ## Options -/

/-- A conversion of the token writes to the buffer. -/
def assignsPairs : Bytes → Bool
  | first :: second :: pos =>
      passesHexFilter first && passesHexFilter second &&
        ((hexDigitValue first).isSome || assignsPairs pos)
  | _ => false

/-- `convert_hex_to_bin` gets as far as a character pair it stores. -/
def assignsHex (token : Bytes) : Bool :=
  (hexStart token).length % 2 = 0 && token.length / 2 = (hexStart token).length / 2 &&
    assignsPairs (hexStart token)

/-- The input of a token, from the store of its length on. -/
def convertToken (heap : Heap) (pch : Bytes) : Proc State Unit := do
  let s ← getState
  let numInputs := s.inputs.length
  -- an element has eight bytes, and four were asked for
  when (heap.lensRoom (4 * (numInputs + 1)) < 8 * (numInputs + 1)) fault
  let inputLen := pch.length / 2
  let buf := (List.range inputLen).map (heap.fresh numInputs)
  match convertHexToBin pch buf with
  | none => abort
  | some (ret, data) =>
      when (heap.inputAllocated numInputs = false ∧ assignsHex pch) fault
      let input := if heap.inputAllocated numInputs then some data else none
      update fun s => { s with inputs := s.inputs ++ [input], ret := ret }

/-- One round of the `strtok` loop. -/
def addInput (heap : Heap) (pch : Bytes) : Proc State Unit := do
  let s ← getState
  let numInputs := s.inputs.length
  exitIf (heap.inputsAllocated numInputs = false) s.ret
  exitIf (heap.lensAllocated numInputs = false) s.ret
  convertToken heap pch

/-- The loop over `argv`, with the number of the options before. An argument alone is no
option with its argument, so it prints the usage. -/
def optionLoop (heap : Heap) : Nat → List Bytes → Proc State Unit
  | _, [] => return ()
  | _, [_] => leave
  | k, option :: arg :: argv =>
      if option = ascii "-h" ∨ option = ascii "--help" then leave
      else if option = ascii "-i" ∨ option = ascii "--inputs" then do
        let s ← getState
        exitIf (heap.strAllocated k = false) s.ret
        forEach (addInput heap) (strtokAll 44 arg)
        optionLoop heap (k + 1) argv
      else leave

/-! ## Extending -/

/-- `hash_extend` with the length of the data, for the register as well. -/
def hashExtendLen (md : Md 32) (pcrValue : Digest 32) (pcrExtend : Bytes) :
    Except Stop (Digest 32) :=
  if pcrExtend.length ≤ 32 then .ok (md (pcrValue.val.take pcrExtend.length ++ pcrExtend))
  else .error .fault

/-- One round of the loop over the inputs. -/
def extendInput (sha256 : Md 32) (input : Option Bytes) : Proc State Unit := do
  let s ← getState
  printData s.pcr.val (ascii "PCR")
  match input with
  | none => fault
  | some data =>
      printData data (ascii "DATA")
      let pcr ← lift (hashExtendLen sha256 s.pcr data)
      update fun s => { s with pcr := pcr }

def main (sha256 : Md 32) (heap : Heap) (argv : List Bytes) : Proc State Int := do
  optionLoop heap 0 argv
  let s ← getState
  forEach (extendInput sha256) s.inputs
  let s ← getState
  printData s.pcr.val (ascii "PCR")
  return 0

/-! ## The tokens that are converted -/

/-- A place of the option loop: the copy of an argument, a token, or a way out. -/
inductive Site where
  | copy (k : Nat)
  | token (pch : Bytes)
  | leave

def sites : Nat → List Bytes → List Site
  | _, [] => []
  | _, [_] => [.leave]
  | k, option :: arg :: argv =>
      if option = ascii "-h" ∨ option = ascii "--help" then [.leave]
      else if option = ascii "-i" ∨ option = ascii "--inputs" then
        .copy k :: ((strtokAll 44 arg).map .token ++ sites (k + 1) argv)
      else [.leave]

def runSite (heap : Heap) : Site → Proc State Unit
  | .copy k => do
      let s ← getState
      exitIf (heap.strAllocated k = false) s.ret
  | .token pch => addInput heap pch
  | .leave => PcrExtend.leave

theorem optionLoop_eq (heap : Heap) (k : Nat) (argv : List Bytes) :
    optionLoop heap k argv = forEach (runSite heap) (sites k argv) := by
  induction k, argv using optionLoop.induct with
  | case1 k => rfl
  | case2 k option => exact (bind_pure (runSite heap .leave)).symm
  | case3 k option arg argv hhelp =>
      rw [optionLoop, sites, if_pos hhelp, if_pos hhelp]
      exact (bind_pure (runSite heap .leave)).symm
  | case4 k option arg argv hhelp hinputs ih =>
      rw [optionLoop, sites, if_neg hhelp, if_neg hhelp, if_pos hinputs, if_pos hinputs, ih]
      show _ = (do
        runSite heap (.copy k)
        forEach (runSite heap) ((strtokAll 44 arg).map Site.token ++ sites (k + 1) argv))
      rw [forEach_append, forEach_map]
      simp only [runSite, bind_assoc]
  | case5 k option arg argv hhelp hinputs =>
      rw [optionLoop, sites, if_neg hhelp, if_neg hhelp, if_neg hinputs, if_neg hinputs]
      exact (bind_pure (runSite heap .leave)).symm

/-- The tokens converted before the options end, and whether the program leaves there: for
help, for an option it does not know, or since it is out of memory. -/
structure Walk where
  tokens : List Bytes
  leaves : Bool

def walk (heap : Heap) : Nat → List Site → Walk
  | _, [] => ⟨[], false⟩
  | _, .leave :: _ => ⟨[], true⟩
  | n, .copy k :: rest => if heap.strAllocated k then walk heap n rest else ⟨[], true⟩
  | n, .token pch :: rest =>
      if heap.inputsAllocated n && heap.lensAllocated n then
        ⟨pch :: (walk heap (n + 1) rest).tokens, (walk heap (n + 1) rest).leaves⟩
      else ⟨[], true⟩

/-- The status of the conversion of a token, whatever its buffer held. -/
def hexStatus (token : Bytes) : Int :=
  ((convertHexToBin token (zeros (token.length / 2))).map Prod.fst).getD 0

theorem convertPairs_status (pos : Bytes) {out out' : Bytes} (h : out.length = out'.length) :
    (convertPairs pos out).1 = (convertPairs pos out').1 := by
  induction pos using readHex.induct generalizing out out' with
  | case1 => rfl
  | case2 c => rfl
  | case3 first second pos ih =>
      cases out with
      | nil =>
          rw [List.eq_nil_of_length_eq_zero h.symm]
      | cons old out =>
          cases out' with
          | nil => cases h
          | cons old' out' =>
              have hrest := ih (Nat.succ.inj h)
              simp only [convertPairs]
              split
              · rfl
              · exact hrest

theorem convertHexToBin_status {token out : Bytes} (h : 2 ≤ token.length)
    (hout : out.length = token.length / 2) :
    ∃ data, convertHexToBin token out = some (hexStatus token, data) := by
  have hzeros : (zeros (token.length / 2)).length = out.length := by rw [zeros_length, hout]
  unfold hexStatus convertHexToBin
  simp only [if_neg (Nat.not_lt.mpr h), hzeros]
  split
  · exact ⟨_, rfl⟩
  · split
    · exact ⟨_, rfl⟩
    · refine ⟨(convertPairs (hexStart token) out).2, ?_⟩
      rw [Option.map_some, Option.getD_some, convertPairs_status (hexStart token) hzeros]

/-- An entry of `inputs` for a token that is converted. -/
def convertedInput (heap : Heap) (n : Nat) (pch : Bytes) : Option Bytes :=
  if heap.inputAllocated n then
    (convertHexToBin pch ((List.range (pch.length / 2)).map (heap.fresh n))).map Prod.snd
  else none

/-- The length of the `n`th input can be stored. -/
def LensFit (heap : Heap) (n : Nat) : Prop := 8 * (n + 1) ≤ heap.lensRoom (4 * (n + 1))

theorem convertToken_short {heap : Heap} {s : State} (hroom : LensFit heap s.inputs.length)
    {pch : Bytes} (h : pch.length < 2) : convertToken heap pch s = .exit 134 s := by
  have hroom' : ¬heap.lensRoom (4 * (s.inputs.length + 1)) < 8 * (s.inputs.length + 1) :=
    Nat.not_lt.mpr hroom
  have hnone : ∀ out, convertHexToBin pch out = none := fun out => if_pos h
  unfold convertToken
  rw [bind_apply, getState_apply, andThen_next, Proc.when, if_neg hroom', pure_bind]
  dsimp only
  rw [hnone]
  rfl

theorem convertToken_room {heap : Heap} {s : State} (hroom : ¬LensFit heap s.inputs.length)
    (pch : Bytes) : convertToken heap pch s = .stop .fault := by
  have hroom' : heap.lensRoom (4 * (s.inputs.length + 1)) < 8 * (s.inputs.length + 1) :=
    Nat.lt_of_not_le hroom
  unfold convertToken
  rw [bind_apply, getState_apply, andThen_next, Proc.when, if_pos hroom']
  rfl

theorem convertToken_long {heap : Heap} {s : State} (hroom : LensFit heap s.inputs.length)
    {pch : Bytes} (h : 2 ≤ pch.length) :
    convertToken heap pch s =
      if heap.inputAllocated s.inputs.length = false ∧ assignsHex pch = true then .stop .fault
      else .next () { s with
        inputs := s.inputs ++ [convertedInput heap s.inputs.length pch]
        ret := hexStatus pch } := by
  have hroom' : ¬heap.lensRoom (4 * (s.inputs.length + 1)) < 8 * (s.inputs.length + 1) :=
    Nat.not_lt.mpr hroom
  have hbuf : ((List.range (pch.length / 2)).map (heap.fresh s.inputs.length)).length
      = pch.length / 2 := by rw [List.length_map, List.length_range]
  obtain ⟨data, hdata⟩ := convertHexToBin_status h hbuf
  unfold convertToken convertedInput
  rw [bind_apply, getState_apply, andThen_next, Proc.when, if_neg hroom', pure_bind]
  dsimp only
  rw [hdata]
  dsimp only
  by_cases hnull : heap.inputAllocated s.inputs.length = false ∧ assignsHex pch = true
  · rw [if_pos hnull, Proc.when, if_pos hnull]
    rfl
  · rw [if_neg hnull, Proc.when, if_neg hnull]
    rfl

/-- No store of a conversion goes wrong, up to a token whose conversion aborts. -/
def Safe (heap : Heap) : Nat → List Bytes → Prop
  | _, [] => True
  | n, pch :: rest =>
      LensFit heap n ∧ (2 ≤ pch.length →
        ¬(heap.inputAllocated n = false ∧ assignsHex pch = true) ∧ Safe heap (n + 1) rest)

/-- One token aborts the program: `ASSERT(inlen >= 2)`. -/
def Aborting (tokens : List Bytes) : Prop := ∃ pch ∈ tokens, pch.length < 2

/-- The value of `ret` behind the conversions. -/
def lastStatus (ret : Int) (tokens : List Bytes) : Int :=
  (tokens.getLast?.map hexStatus).getD ret

/-- What the conversions leave: one input for each token. -/
structure Converted (heap : Heap) (tokens : List Bytes) (s t : State) : Prop where
  ret : t.ret = lastStatus s.ret tokens
  pcr : t.pcr = s.pcr
  printed : t.printed = s.printed
  inputs : t.inputs = s.inputs ++ tokens.mapIdx fun i pch =>
    convertedInput heap (s.inputs.length + i) pch

theorem lastStatus_cons (ret : Int) (pch : Bytes) (tokens : List Bytes) :
    lastStatus (hexStatus pch) tokens = lastStatus ret (pch :: tokens) := by
  cases tokens with
  | nil => rfl
  | cons next tokens => simp [lastStatus, List.getLast?_cons]

section Tokens

variable {heap : Heap}

theorem convertTokens_unsafe {tokens : List Bytes} {s : State}
    (h : ¬Safe heap s.inputs.length tokens) :
    forEach (convertToken heap) tokens s = .stop .fault := by
  induction tokens generalizing s with
  | nil => exact absurd trivial h
  | cons pch tokens ih =>
      show Outcome.andThen (convertToken heap pch s) _ = _
      by_cases hroom : LensFit heap s.inputs.length
      · by_cases hlong : 2 ≤ pch.length
        · rw [convertToken_long hroom hlong]
          split
          · rfl
          · next hnull =>
            rw [andThen_next]
            apply ih
            rw [List.length_append]
            exact fun hrest => h ⟨hroom, fun _ => ⟨hnull, hrest⟩⟩
        · exact absurd ⟨hroom, fun hle => absurd hle hlong⟩ h
      · rw [convertToken_room hroom]
        rfl

theorem convertTokens_abort {tokens : List Bytes} {s : State}
    (hsafe : Safe heap s.inputs.length tokens) (h : Aborting tokens) :
    ∃ t, forEach (convertToken heap) tokens s = .exit 134 t := by
  induction tokens generalizing s with
  | nil =>
      obtain ⟨pch, hmem, -⟩ := h
      cases hmem
  | cons pch tokens ih =>
      show ∃ t, Outcome.andThen (convertToken heap pch s) _ = _
      by_cases hlong : 2 ≤ pch.length
      · obtain ⟨hnull, hrest⟩ := hsafe.2 hlong
        have habort : Aborting tokens := by
          obtain ⟨short, hmem, hshort⟩ := h
          rcases List.mem_cons.mp hmem with rfl | hmem
          · omega
          · exact ⟨short, hmem, hshort⟩
        rw [convertToken_long hsafe.1 hlong, if_neg hnull, andThen_next]
        apply ih
        · rwa [List.length_append]
        · exact habort
      · rw [convertToken_short hsafe.1 (by omega)]
        exact ⟨s, rfl⟩

theorem convertTokens_next {tokens : List Bytes} {s : State}
    (hsafe : Safe heap s.inputs.length tokens) (h : ¬Aborting tokens) :
    ∃ t, forEach (convertToken heap) tokens s = .next () t ∧ Converted heap tokens s t := by
  induction tokens generalizing s with
  | nil => exact ⟨s, rfl, rfl, rfl, rfl, by simp⟩
  | cons pch tokens ih =>
      have hlong : 2 ≤ pch.length := by
        by_contra hshort
        exact h ⟨pch, List.mem_cons_self, by omega⟩
      obtain ⟨hnull, hrest⟩ := hsafe.2 hlong
      let t : State := { s with
        inputs := s.inputs ++ [convertedInput heap s.inputs.length pch]
        ret := hexStatus pch }
      have hlen : t.inputs.length = s.inputs.length + 1 := List.length_append
      have htokens : ¬Aborting tokens := fun ⟨short, hmem, hshort⟩ =>
        h ⟨short, List.mem_cons_of_mem pch hmem, hshort⟩
      obtain ⟨u, hu, hconverted⟩ := ih (s := t) (hlen ▸ hrest) htokens
      refine ⟨u, ?_, ?_⟩
      · show Outcome.andThen (convertToken heap pch s) _ = _
        rw [convertToken_long hsafe.1 hlong, if_neg hnull, andThen_next]
        exact hu
      · refine ⟨?_, hconverted.pcr, hconverted.printed, ?_⟩
        · rw [hconverted.ret]
          exact lastStatus_cons s.ret pch tokens
        · rw [hconverted.inputs, hlen, List.mapIdx_cons]
          simp [t, Nat.add_assoc, Nat.add_comm 1]

end Tokens

/-! ## The option loop -/

section Walk

variable {heap : Heap}

theorem convertToken_inputs {s t : State} {pch : Bytes}
    (h : convertToken heap pch s = .next () t) : t.inputs.length = s.inputs.length + 1 := by
  by_cases hroom : LensFit heap s.inputs.length
  · by_cases hlong : 2 ≤ pch.length
    · rw [convertToken_long hroom hlong] at h
      split at h
      · cases h
      · injection h with _ hstate
        rw [← hstate, List.length_append]
        rfl
    · rw [convertToken_short hroom (by omega)] at h
      cases h
  · rw [convertToken_room hroom] at h
    cases h

theorem addInput_eq (pch : Bytes) (s : State) :
    addInput heap pch s =
      if (heap.inputsAllocated s.inputs.length && heap.lensAllocated s.inputs.length) = true then
        convertToken heap pch s
      else .exit s.ret s := by
  unfold addInput
  rw [bind_apply, getState_apply, andThen_next]
  cases heap.inputsAllocated s.inputs.length <;> cases heap.lensAllocated s.inputs.length <;> rfl

/-- The places of the option loop come down to the conversion of the tokens, and the way
out behind them. -/
theorem forEach_runSite (places : List Site) (s : State) :
    forEach (runSite heap) places s = (do
      forEach (convertToken heap) (walk heap s.inputs.length places).tokens
      Proc.when ((walk heap s.inputs.length places).leaves = true) leave) s := by
  induction places generalizing s with
  | nil => rfl
  | cons place places ih =>
      cases place with
      | leave => rfl
      | copy k =>
          cases halloc : heap.strAllocated k with
          | false =>
              have hwalk : walk heap s.inputs.length (.copy k :: places) = ⟨[], true⟩ := by
                simp [walk, halloc]
              have hcopy : runSite heap (.copy k) s = .exit s.ret s := by
                simp [runSite, halloc]
              rw [hwalk]
              show Outcome.andThen (runSite heap (.copy k) s) _ = _
              rw [hcopy]
              rfl
          | true =>
              have hwalk : walk heap s.inputs.length (.copy k :: places)
                  = walk heap s.inputs.length places := by simp [walk, halloc]
              have hcopy : runSite heap (.copy k) s = .next () s := by
                simp [runSite, halloc]
              rw [hwalk]
              show Outcome.andThen (runSite heap (.copy k) s) _ = _
              rw [hcopy, andThen_next]
              exact ih s
      | token pch =>
          show Outcome.andThen (addInput heap pch s) _ = _
          rw [addInput_eq]
          by_cases halloc :
              (heap.inputsAllocated s.inputs.length && heap.lensAllocated s.inputs.length) = true
          · rw [if_pos halloc, walk, if_pos halloc]
            show _ = Outcome.andThen
              (Outcome.andThen (convertToken heap pch s) fun _ => forEach (convertToken heap) _) _
            cases hconv : convertToken heap pch s with
            | next _ t =>
                rw [andThen_next, andThen_next, ih t, convertToken_inputs hconv]
                rfl
            | exit r t => rfl
            | stop why => rfl
          · rw [if_neg halloc, walk, if_neg halloc]
            rfl

end Walk

/-- The tokens passed with `-i`, in order, up to an option of another kind. -/
def passedTokens : List Bytes → List Bytes
  | option :: arg :: argv =>
      if option = ascii "-i" ∨ option = ascii "--inputs" then
        strtokAll 44 arg ++ passedTokens argv
      else []
  | _ => []

theorem walk_tokens {heap : Heap} (tokens : List Bytes) (n : Nat) (places : List Site)
    (h : (walk heap n (tokens.map Site.token ++ places)).leaves = false) :
    (walk heap n (tokens.map Site.token ++ places)).tokens
        = tokens ++ (walk heap (n + tokens.length) places).tokens ∧
      (walk heap (n + tokens.length) places).leaves = false := by
  induction tokens generalizing n with
  | nil => exact ⟨rfl, h⟩
  | cons pch tokens ih =>
      rw [List.map_cons, List.cons_append, walk] at h ⊢
      split at h
      · next halloc =>
        obtain ⟨htokens, hleaves⟩ := ih (n + 1) h
        have hcount : n + (pch :: tokens).length = n + 1 + tokens.length := by
          rw [List.length_cons]
          omega
        rw [if_pos halloc, hcount, List.cons_append]
        exact ⟨congrArg (pch :: ·) htokens, hleaves⟩
      · cases h

/-- A program that gets to the end of its options has converted every token passed. -/
theorem walk_passedTokens {heap : Heap} (k n : Nat) (argv : List Bytes)
    (h : (walk heap n (sites k argv)).leaves = false) :
    (walk heap n (sites k argv)).tokens = passedTokens argv := by
  induction k, argv using optionLoop.induct generalizing n with
  | case1 k => rfl
  | case2 k option => cases h
  | case3 k option arg argv hhelp =>
      rw [sites, if_pos hhelp] at h
      cases h
  | case4 k option arg argv hhelp hinputs ih =>
      rw [sites, if_neg hhelp, if_pos hinputs, walk] at h ⊢
      rw [passedTokens, if_pos hinputs]
      split at h
      · next halloc =>
        obtain ⟨htokens, hleaves⟩ := walk_tokens _ n _ h
        rw [if_pos halloc, htokens, ih _ hleaves]
      · cases h
  | case5 k option arg argv hhelp hinputs =>
      rw [sites, if_neg hhelp, if_neg hinputs] at h
      cases h

/-! ## The extension -/

/-- The tokens are the digests in hexadecimal notation. -/
def Denote (tokens : List Bytes) (digests : List (Digest 32)) : Prop :=
  tokens.map readHex = digests.map fun d => some d.val

theorem Denote.cons {pch : Bytes} {tokens : List Bytes} {digests : List (Digest 32)}
    (h : Denote (pch :: tokens) digests) :
    ∃ d rest, digests = d :: rest ∧ readHex pch = some d.val ∧ Denote tokens rest := by
  cases digests with
  | nil => cases h
  | cons d rest =>
      obtain ⟨hd, hrest⟩ := List.cons.inj h
      exact ⟨d, rest, rfl, hd, hrest⟩

theorem digest_ne_nil (d : Digest 32) : d.val ≠ [] := by
  intro h
  have hlen := d.property
  rw [h] at hlen
  cases hlen

theorem assignsPairs_of_readHex {pos data : Bytes} (h : readHex pos = some data)
    (hne : data ≠ []) : assignsPairs pos = true := by
  cases pos using readHex.induct with
  | case1 =>
      cases h
      exact absurd rfl hne
  | case2 c => cases h
  | case3 first second pos _ =>
      simp only [readHex, Option.bind_eq_bind, Option.bind_eq_some_iff] at h
      obtain ⟨high, hhigh, low, hlow, -⟩ := h
      simp [assignsPairs, passesHexFilter_of_digit hhigh, passesHexFilter_of_digit hlow, hhigh]

/-- A digest in hexadecimal notation is stored, so its buffer is there. -/
theorem convertedInput_of_digest {heap : Heap} {n : Nat} {pch : Bytes} {d : Digest 32}
    (h : readHex pch = some d.val)
    (hnull : ¬(heap.inputAllocated n = false ∧ assignsHex pch = true)) :
    convertedInput heap n pch = some d.val := by
  have hlen := readHex_length h
  have hassigns : assignsHex pch = true := by
    have heven : pch.length % 2 = 0 := by omega
    simp [assignsHex, hexStart_of_readHex h, assignsPairs_of_readHex h (digest_ne_nil d), heven]
  have halloc : heap.inputAllocated n = true := by
    by_contra hnot
    exact hnull ⟨by simpa using hnot, hassigns⟩
  have hbuf : ((List.range (pch.length / 2)).map (heap.fresh n)).length = d.val.length := by
    rw [List.length_map, List.length_range]
    omega
  rw [convertedInput, if_pos halloc, convertHexToBin_of_readHex h (digest_ne_nil d) hbuf]
  rfl

theorem convertedInputs_of_digests {heap : Heap} {tokens : List Bytes}
    {digests : List (Digest 32)} (h : Denote tokens digests) (n : Nat)
    (hsafe : Safe heap n tokens) :
    (tokens.mapIdx fun i pch => convertedInput heap (n + i) pch)
      = digests.map fun d => some d.val := by
  induction tokens generalizing digests n with
  | nil =>
      cases digests with
      | nil => rfl
      | cons d rest => cases h
  | cons pch tokens ih =>
      obtain ⟨d, rest, rfl, hd, hrest⟩ := h.cons
      have hlen := readHex_length hd
      have hd32 := d.property
      obtain ⟨hnull, htail⟩ := hsafe.2 (by omega)
      have htokens := ih hrest (n + 1) htail
      rw [List.mapIdx_cons, List.map_cons, Nat.add_zero, convertedInput_of_digest hd hnull,
        ← htokens]
      simp only [Nat.add_assoc, Nat.add_comm 1]

theorem hashExtendLen_digest (md : Md 32) (pcr d : Digest 32) :
    hashExtendLen md pcr d.val = .ok (hashExtend md pcr d) := by
  have htake : pcr.val.take 32 = pcr.val := List.take_of_length_le (Nat.le_of_eq pcr.property)
  rw [hashExtendLen, d.property, if_pos (Nat.le_refl 32), htake]
  rfl

theorem extendInputs_digests (sha256 : Md 32) (digests : List (Digest 32)) (s : State) :
    ∃ t, forEach (extendInput sha256) (digests.map fun d => some d.val) s = .next () t ∧
      t.pcr = replayFrom sha256 s.pcr digests := by
  induction digests generalizing s with
  | nil => exact ⟨s, rfl, rfl⟩
  | cons d digests ih =>
      let printed := s.printed ++ [(s.pcr.val, ascii "PCR")] ++ [(d.val, ascii "DATA")]
      let t : State := { s with pcr := hashExtend sha256 s.pcr d, printed := printed }
      have hround : extendInput sha256 (some d.val) s = .next () t := by
        unfold extendInput
        rw [bind_apply, getState_apply, andThen_next]
        dsimp only
        rw [hashExtendLen_digest]
        rfl
      obtain ⟨u, hu, hpcr⟩ := ih t
      refine ⟨u, ?_, ?_⟩
      · show Outcome.andThen (extendInput sha256 (some d.val) s) _ = _
        rw [hround]
        exact hu
      · rw [hpcr]
        rfl

/-- The loop over the inputs never leaves `main`. -/
theorem extendInputs_no_exit (sha256 : Md 32) (inputs : List (Option Bytes)) (s : State) :
    wlp (forEach (extendInput sha256) inputs) (fun _ _ => True) (fun _ _ => False) s := by
  apply wlp_forEach (I := fun _ => True) _ trivial
  intro input _ t _
  apply wlp_bind
  apply wlp_getState
  apply wlp_bind
  apply wlp_update
  cases input with
  | none => trivial
  | some data =>
      apply wlp_bind
      apply wlp_update
      apply wlp_bind
      apply wlp_lift
      intro pcr _
      trivial

/-! ## Simulating the extension -/

/-- The tokens that are converted and whether the program leaves behind them. -/
def conversions (heap : Heap) (argv : List Bytes) : Walk := walk heap 0 (sites 0 argv)

theorem main_eq (sha256 : Md 32) (heap : Heap) (argv : List Bytes) :
    run (main sha256 heap argv) State.start =
      run (do
        (do
          forEach (convertToken heap) (conversions heap argv).tokens
          Proc.when ((conversions heap argv).leaves = true) leave)
        let s ← getState
        forEach (extendInput sha256) s.inputs
        let s ← getState
        printData s.pcr.val (ascii "PCR")
        return 0) State.start := by
  apply run_bind_of_eq
  rw [optionLoop_eq]
  exact forEach_runSite (sites 0 argv) State.start

section Runs

variable {sha256 : Md 32} {heap : Heap} {argv : List Bytes}

theorem main_of_not_safe (h : ¬Safe heap 0 (conversions heap argv).tokens) :
    run (main sha256 heap argv) State.start = .error .fault := by
  have htokens : forEach (convertToken heap) (conversions heap argv).tokens State.start
      = .stop .fault := convertTokens_unsafe h
  rw [main_eq, bind_assoc]
  unfold run
  rw [bind_apply, htokens]
  rfl

theorem main_aborts (sha256 : Md 32) (hsafe : Safe heap 0 (conversions heap argv).tokens)
    (h : Aborting (conversions heap argv).tokens) :
    ∃ t, run (main sha256 heap argv) State.start = .ok (134, t) := by
  obtain ⟨t, ht⟩ := convertTokens_abort (s := State.start) hsafe h
  refine ⟨t, ?_⟩
  rw [main_eq, bind_assoc]
  unfold run
  rw [bind_apply, ht]
  rfl

theorem main_leaves (sha256 : Md 32) (hsafe : Safe heap 0 (conversions heap argv).tokens)
    (h : ¬Aborting (conversions heap argv).tokens)
    (hleaves : (conversions heap argv).leaves = true) :
    ∃ t, run (main sha256 heap argv) State.start
        = .ok (lastStatus (-1) (conversions heap argv).tokens, t) ∧ t.printed = [] := by
  obtain ⟨t, ht, hconverted⟩ := convertTokens_next (s := State.start) hsafe h
  refine ⟨t, ?_, hconverted.printed⟩
  have hret : t.ret = lastStatus (-1) (conversions heap argv).tokens := hconverted.ret
  rw [main_eq, bind_assoc]
  unfold run
  rw [bind_apply, ht, andThen_next, bind_apply, Proc.when, if_pos hleaves, ← hret]
  rfl

theorem main_ends (sha256 : Md 32) (hsafe : Safe heap 0 (conversions heap argv).tokens)
    (h : ¬Aborting (conversions heap argv).tokens)
    (hleaves : (conversions heap argv).leaves = false) :
    ∃ t, Converted heap (conversions heap argv).tokens State.start t ∧
      run (main sha256 heap argv) State.start = run (do
        forEach (extendInput sha256) t.inputs
        let s ← getState
        printData s.pcr.val (ascii "PCR")
        return 0) t := by
  obtain ⟨t, ht, hconverted⟩ := convertTokens_next (s := State.start) hsafe h
  refine ⟨t, hconverted, ?_⟩
  have hstay : ¬(conversions heap argv).leaves = true := by simp [hleaves]
  rw [main_eq, bind_assoc]
  unfold run
  rw [bind_apply, ht, andThen_next, bind_apply, Proc.when, if_neg hstay]
  rfl

end Runs

/-- The program fails, or every token passed is a SHA-256 digest and what it prints last is
the register of zeros extended by them in order. -/
def SimulatesExtension (sha256 : Md 32) (heap : Heap) (argv : List Bytes) : Prop :=
  ∃ status t, run (main sha256 heap argv) State.start = .ok (status, t) ∧
    (status ≠ 0 ∨ ∃ digests, Denote (passedTokens argv) digests ∧
      t.printed.getLast? = some ((replay sha256 digests).val, ascii "PCR"))

/-- Every store of a conversion is inside its object; and a token of one character aborts,
or the program leaves with the failure of the last token before, or every token is a
digest. -/
structure SoundConversions (heap : Heap) (tokens : List Bytes) (leaves : Bool) : Prop where
  safe : Safe heap 0 tokens
  ends : Aborting tokens ∨
    if leaves then lastStatus (-1) tokens ≠ 0 else ∃ digests, Denote tokens digests

theorem soundConversions_of_simulates {sha256 : Md 32} {heap : Heap} {argv : List Bytes}
    (h : SimulatesExtension sha256 heap argv) :
    SoundConversions heap (conversions heap argv).tokens (conversions heap argv).leaves := by
  obtain ⟨status, t, hrun, hresult⟩ := h
  have hsafe : Safe heap 0 (conversions heap argv).tokens := by
    by_contra hunsafe
    rw [main_of_not_safe hunsafe] at hrun
    cases hrun
  refine ⟨hsafe, ?_⟩
  by_cases habort : Aborting (conversions heap argv).tokens
  · exact Or.inl habort
  · right
    cases hleaves : (conversions heap argv).leaves with
    | true =>
        obtain ⟨u, hu, hprinted⟩ := main_leaves sha256 hsafe habort hleaves
        rw [hu] at hrun
        cases hrun
        rcases hresult with hne | ⟨digests, -, hlast⟩
        · exact hne
        · rw [hprinted] at hlast
          cases hlast
    | false =>
        have htokens : (conversions heap argv).tokens = passedTokens argv :=
          walk_passedTokens 0 0 argv hleaves
        obtain ⟨u, -, hu⟩ := main_ends sha256 hsafe habort hleaves
        rw [hu] at hrun
        have hzero : status = 0 := by
          refine run_of_wlp (Q := fun r _ => r = 0) ?_ hrun
          apply wlp_bind
          apply wlp_mono (extendInputs_no_exit sha256 u.inputs u) _ fun _ _ hfalse => hfalse.elim
          intro _ v _
          rfl
        rcases hresult with hne | ⟨digests, hdenote, -⟩
        · exact absurd hzero hne
        · rw [htokens]
          exact ⟨digests, hdenote⟩

theorem simulatesExtension_iff (sha256 : Md 32) (heap : Heap) (argv : List Bytes) :
    SimulatesExtension sha256 heap argv ↔
      SoundConversions heap (conversions heap argv).tokens (conversions heap argv).leaves := by
  constructor
  · exact soundConversions_of_simulates
  · rintro ⟨hsafe, hends⟩
    by_cases habort : Aborting (conversions heap argv).tokens
    · obtain ⟨t, ht⟩ := main_aborts sha256 hsafe habort
      exact ⟨134, t, ht, Or.inl (by decide)⟩
    · have hends := hends.resolve_left habort
      cases hleaves : (conversions heap argv).leaves with
      | true =>
          rw [hleaves, if_pos rfl] at hends
          obtain ⟨t, ht, -⟩ := main_leaves sha256 hsafe habort hleaves
          exact ⟨_, t, ht, Or.inl hends⟩
      | false =>
          rw [hleaves, if_neg (by decide)] at hends
          obtain ⟨digests, hdenote⟩ := hends
          obtain ⟨t, hconverted, hrun⟩ := main_ends sha256 hsafe habort hleaves
          have hinputs : t.inputs = digests.map fun d => some d.val := by
            rw [hconverted.inputs]
            exact convertedInputs_of_digests hdenote 0 hsafe
          have hpcr : t.pcr = zeroDigest 32 := hconverted.pcr
          obtain ⟨u, hu, hfold⟩ := extendInputs_digests sha256 digests t
          let last : Bytes × Bytes := (u.pcr.val, ascii "PCR")
          refine ⟨0, { u with printed := u.printed ++ [last] }, ?_, Or.inr ⟨digests, ?_, ?_⟩⟩
          · rw [hrun, hinputs]
            unfold run
            rw [bind_apply, hu]
            rfl
          · rw [← walk_passedTokens 0 0 argv hleaves]
            exact hdenote
          · rw [List.getLast?_concat]
            show some (u.pcr.val, ascii "PCR") = _
            rw [hfold, hpcr]
            rfl

/-- A heap that never runs out, with room to spare behind the lengths. -/
def roomyHeap : Heap where
  strAllocated := fun _ => true
  inputsAllocated := fun _ => true
  lensAllocated := fun _ => true
  inputAllocated := fun _ => true
  fresh := fun _ _ => 0
  lensRoom := fun size => 2 * size

/-- Two digits are not a SHA-256 digest. -/
theorem not_simulatesExtension_byte :
    ¬SimulatesExtension (fun _ => zeroDigest 32) roomyHeap [ascii "-i", ascii "ab"] := by
  intro h
  have hsound := soundConversions_of_simulates h
  have htokens : (conversions roomyHeap [ascii "-i", ascii "ab"]).tokens = [ascii "ab"] := by decide
  have hleaves : (conversions roomyHeap [ascii "-i", ascii "ab"]).leaves = false := by decide
  rw [htokens, hleaves] at hsound
  rcases hsound.ends with ⟨pch, hmem, hshort⟩ | ⟨digests, hdenote⟩
  · rw [List.mem_singleton] at hmem
    subst hmem
    exact absurd hshort (by decide)
  · obtain ⟨d, rest, -, hd, -⟩ := hdenote.cons
    have hlen := readHex_length hd
    rw [d.property] at hlen
    exact absurd hlen (by decide)

end MeasuredBoot.PcrExtend
