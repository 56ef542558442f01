import MeasuredBoot.Common.Sha2
import MeasuredBoot.Lib.JsonScalars
import MeasuredBoot.SrtmLog.Written

/-! # The event log as JSON objects

When the event log of a register is a sequence of complete objects: one for its initial
value and one for each event with an action. Three callbacks write an object, and only
the event data closes it.
-/

namespace MeasuredBoot.SrtmLog

open Binary Imperative Imperative.Proc

/-! ## The objects a log asks for -/

/-- The description printed for an event with data. -/
def printedDescription (type size : Nat) (data : Bytes) : Bytes :=
  if isVariableEvent type then variableDescription data
  else if type = evIpl then
    ((iplLines size size (spacesForTabs data)).map fun line =>
      formatted (precisionText line.1 line.2)).flatMap cut
  else if type = evEfiGptEvent then gptDescription data
  else formatted (plainDescription type size data)

def dataSizeAt (mem : Bytes) : Nat := ofLE (slice mem (bodyOffset mem) 4)

def descriptionAt (mem : Bytes) : Bytes :=
  printedDescription (eventAt mem).eventType (dataSizeAt mem) (dataAt mem)

def initvalValue (locality pcr : Nat) : Json.Value :=
  .object [(ascii "type", .string (ascii "TPM Reference Value")),
    (ascii "subtype", .string (ascii "TPM_PCR_INIT_VALUE")),
    (ascii "index", .number (decText pcr)),
    (ascii "sha256", .string (List.replicate 63 48 ++ decText locality))]

def digestField (d : Digest2) : Bytes × Json.Value :=
  (getAlgoStr d.algorithmId, .string (hexText d.digest))

/-- Header, digests and description of an event. -/
def eventValue (type pcr : Nat) (digests : List Digest2) (description : Bytes) : Json.Value :=
  .object ((ascii "type", .string (ascii "TPM Reference Value")) ::
    (ascii "subtype", .string (eventtypeToString type)) ::
    (ascii "index", .number (decText pcr)) ::
    (digests.map digestField ++ [(ascii "description", .string description)]))

/-- The objects for a register, from an event on: the initial value in front of its first
event, and one for each event with an action, with the digests the callback lets through. -/
def objectsFrom (pcr : Nat) : Bool → Bool → List Bytes → List Json.Value
  | _, _, [] => []
  | seen, pending, mem :: sites =>
      let entry := entryAt .json (!seen) pending mem
      if (eventAt mem).pcrIndex = pcr then
        entry.locality.toList.map (fun locality => initvalValue locality.toNat pcr) ++
          (entry.type.toList.map
            (fun type => eventValue type pcr entry.digests (descriptionAt mem)) ++
          objectsFrom pcr true ((eventAt mem).flagAfter pending) sites)
      else objectsFrom pcr seen ((eventAt mem).flagAfter pending) sites

/-- What follows each object. -/
def objectClose : Bytes := ascii ",\n"

/-- The event log of a register is made of its objects, all of them complete. -/
def ObjectsComplete (b : EventBuf) (s : CbData) (pcr : Nat) : Prop :=
  Json.terminated objectClose ((bufferText pcr s).length + 1) (bufferText pcr s) =
    some (objectsFrom pcr false false b.sites)

/-- An event with an action has data, and its description fits the formatting buffer or is
printed in pieces; one without has a single digest at most. -/
def CompleteAt (mem : Bytes) : Prop :=
  if (eventAt mem).isNoAction then (eventAt mem).digests.tail = []
  else dataSizeAt mem ≠ 0 ∧
    ((eventAt mem).eventType = evIpl ∨ (descriptionAt mem).length ≤ 4074)

/-! ## Texts as members -/

/-- Digests as members in front of others. -/
def digestMembers : List Digest2 → Bytes → Bytes
  | [], tail => tail
  | d :: digests, tail =>
      Json.member (ascii "\t") (getAlgoStr d.algorithmId)
        (Json.quoted (hexText d.digest) ++ 44 :: (ascii "\n" ++ digestMembers digests tail))

/-- What stands behind the opening brace of an event. -/
def eventMembers (type pcr : Nat) (digests : List Digest2) (tail : Bytes) : Bytes :=
  Json.member (ascii "\n\t") (ascii "type") (Json.quoted (ascii "TPM Reference Value") ++ 44 ::
    Json.member (ascii "\n\t") (ascii "subtype") (Json.quoted (eventtypeToString type) ++ 44 ::
    Json.member (ascii "\n\t") (ascii "index") (decText pcr ++ 44 ::
    (ascii "\n" ++ digestMembers digests tail))))

def descriptionMember (description : Bytes) : Bytes :=
  Json.member (ascii "\t") (ascii "description")
    (Json.quoted description ++ ascii "\n" ++ [125])

theorem digestText_append (d : Digest2) (rest : Bytes) : digestText .json d ++ rest =
    Json.member (ascii "\t") (getAlgoStr d.algorithmId)
      (Json.quoted (hexText d.digest) ++ 44 :: (ascii "\n" ++ rest)) := by
  simp [digestText, Json.member, Json.quoted, ascii]

theorem digestTexts_append (digests : List Digest2) (tail : Bytes) :
    digests.flatMap (digestText .json) ++ tail = digestMembers digests tail := by
  induction digests with
  | nil => rfl
  | cons d digests ih =>
      rw [List.flatMap_cons, List.append_assoc, ih, digestText_append]
      rfl

theorem eventText_eq (type pcr : Nat) (digests : List Digest2) (tail : Bytes) :
    headerText .json type pcr ++ (digests.flatMap (digestText .json) ++ tail) =
      123 :: eventMembers type pcr digests tail := by
  rw [digestTexts_append]
  simp [headerText, eventMembers, Json.member, Json.quoted, ascii]

theorem descriptionText_eq (description : Bytes) :
    descriptionText .json description = descriptionMember description ++ objectClose := by
  simp [descriptionText, descriptionMember, objectClose, Json.member, Json.quoted, ascii]

/-! ## Names and numbers -/

theorem eventtypeToString_spec (type : Nat) :
    Json.Unescaped (eventtypeToString type) ∧ (eventtypeToString type).length ≤ 40 := by
  have hall : ∀ x ∈ eventTypeNames, Json.Unescaped x.2 ∧ x.2.length ≤ 40 := by decide +kernel
  have hunknown : Json.Unescaped (ascii "Unknown event type") ∧
      (ascii "Unknown event type").length ≤ 40 := by decide
  unfold eventtypeToString
  cases hlookup : eventTypeNames.lookup type with
  | none => exact hunknown
  | some name =>
      obtain ⟨before, after, hsplit, _⟩ := List.lookup_eq_some_iff.mp hlookup
      have hmem : (type, name) ∈ eventTypeNames := by
        rw [hsplit]
        exact List.mem_append_right before List.mem_cons_self
      exact hall _ hmem

theorem getAlgoStr_spec (id : Nat) :
    Json.Unescaped (getAlgoStr id) ∧ (getAlgoStr id).length ≤ 7 := by
  unfold getAlgoStr
  split_ifs <;> decide

theorem decText_length {n : Nat} (h : n < 256) : (decText n).length ≤ 3 :=
  decText_length_le (by decide) (by omega)

theorem decText_short {n : Nat} (h : n < 2 ^ 32) : (decText n).length ≤ 10 :=
  decText_length_le (by decide) (by omega)

/-! ## Nothing is cut off -/

theorem cut_of_length {text : Bytes} (h : text.length ≤ 4095) : cut text = text :=
  List.take_of_length_le h

theorem initvalText_short (format : Format) (locality : UInt8) {pcr : Nat} (h : pcr < 2 ^ 32) :
    (initvalText format locality.toNat pcr).length ≤ 4095 := by
  have hlocality := decText_length locality.toNat_lt
  have hpcr := decText_short h
  cases format with
  | json =>
      simp [initvalText, ascii]
      omega
  | text =>
      simp [initvalText, ascii]
      omega

theorem headerText_length {pcr : Nat} (type : Nat) (h : pcr < 32) :
    (headerText .json type pcr).length ≤ 4095 := by
  have hname := (eventtypeToString_spec type).2
  have hpcr := decText_length (Nat.lt_trans h (by decide))
  simp [headerText, ascii]
  omega

theorem digestText_length {d : Digest2} (h : d.digest.length ≤ 64) :
    (digestText .json d).length ≤ 4095 := by
  have hname := (getAlgoStr_spec d.algorithmId).2
  have hhex := hexText_length d.digest
  simp [digestText, ascii]
  omega

theorem digestsAt_length {count : Nat} {mem : Bytes} {d : Digest2} (h : d ∈ digestsAt count mem) :
    d.digest.length ≤ 64 := by
  induction count generalizing mem with
  | zero => cases h
  | succ count ih =>
      rcases List.mem_cons.mp h with rfl | h
      · have hslice : (digest2At mem).digest.length ≤
            tpm2AlgUtilGetHashSize (digest2At mem).algorithmId := List.length_take_le ..
        have hsize : tpm2AlgUtilGetHashSize (digest2At mem).algorithmId ≤ 64 := by
          unfold tpm2AlgUtilGetHashSize
          split_ifs <;> omega
        omega
      · exact ih h

theorem unskipped_subset {pending : Bool} {digests : List Digest2} {d : Digest2}
    (h : d ∈ unskipped pending digests) : d ∈ digests := by
  unfold unskipped at h
  split at h
  · exact List.mem_of_mem_tail h
  · exact h

theorem digestTexts_cut {mem : Bytes} {pending : Bool} :
    ((unskipped pending (eventAt mem).digests).map (digestText .json)).flatMap cut =
      (unskipped pending (eventAt mem).digests).flatMap (digestText .json) := by
  rw [List.flatMap_map]
  refine List.flatMap_congr fun d hd => ?_
  exact cut_of_length (digestText_length (digestsAt_length (unskipped_subset hd)))

/-! ## Reading an event -/

theorem digestMembers_append (digests : List Digest2) (tail rest : Bytes) :
    digestMembers digests (tail ++ rest) = digestMembers digests tail ++ rest := by
  rw [← digestTexts_append, ← digestTexts_append, List.append_assoc]

theorem eventMembers_append (type pcr : Nat) (digests : List Digest2) (tail rest : Bytes) :
    eventMembers type pcr digests (tail ++ rest) = eventMembers type pcr digests tail ++ rest := by
  simp only [eventMembers, digestMembers_append, Json.member_append, List.append_assoc,
    List.cons_append]

theorem descriptionMember_reads {description : Bytes} (h : Json.Unescaped description) :
    Json.ReadsMembers 2 (descriptionMember description)
      [(ascii "description", .string description)] :=
  Json.ReadsMembers.last (ascii "description") (ascii "\n") (by decide) (by decide)
    (Json.Reads.string h) (by decide)

theorem digestMembers_reads {k : Nat} {tail : Bytes} {fields : List (Bytes × Json.Value)}
    (hk : 1 ≤ k) (h : Json.ReadsMembers k tail fields) (digests : List Digest2) :
    Json.ReadsMembers (k + digests.length) (digestMembers digests tail)
      (digests.map digestField ++ fields) := by
  induction digests with
  | nil => exact h
  | cons d digests ih =>
      have hdigest := (Json.Reads.string (Json.plain_hexText d.digest).unescaped).mono
        (show 1 ≤ k + digests.length by omega)
      exact Json.ReadsMembers.cons (ih.space (by decide)) (getAlgoStr d.algorithmId) (by decide)
        (getAlgoStr_spec _).1 hdigest

theorem headerMember_reads {k : Nat} {text more : Bytes} {item : Json.Value}
    {fields : List (Bytes × Json.Value)} (hmore : Json.ReadsMembers k more fields) (key : Bytes)
    (hk : 1 ≤ k) (hkey : Json.Unescaped key) (h : Json.Reads 1 text item) :
    Json.ReadsMembers (k + 1) (Json.member (ascii "\n\t") key (text ++ 44 :: more))
      ((key, item) :: fields) :=
  Json.ReadsMembers.cons hmore key (by decide) hkey (h.mono hk)

theorem event_reads {pcr : Nat} {description : Bytes} (type : Nat) (digests : List Digest2)
    (h : Json.Unescaped description) :
    Json.Reads (6 + digests.length)
      (123 :: eventMembers type pcr digests (descriptionMember description))
      (eventValue type pcr digests description) := by
  have hvalue : Json.Unescaped (ascii "TPM Reference Value") := by decide
  have hnewline : Json.Blank (ascii "\n") := by decide
  have hdigests := digestMembers_reads (by omega) (descriptionMember_reads h) digests
  have hindex := headerMember_reads (hdigests.space hnewline) (ascii "index") (by omega)
    (by decide) (Json.reads_decText pcr)
  have hsubtype := headerMember_reads hindex (ascii "subtype") (by omega) (by decide)
    (Json.Reads.string (eventtypeToString_spec type).1)
  have htype := headerMember_reads hsubtype (ascii "type") (by omega) (by decide)
    (Json.Reads.string hvalue)
  exact (Json.ReadsMembers.object (by decide) htype).mono (by omega)

theorem initval_reads (pcr : Nat) (locality : UInt8) :
    ∃ object, initvalText .json locality.toNat pcr = object ++ objectClose ∧
      4 ≤ object.length ∧ Json.Reads 6 object (initvalValue locality.toNat pcr) := by
  have hvalue : Json.Unescaped (ascii "TPM Reference Value") := by decide
  have hname : Json.Unescaped (ascii "TPM_PCR_INIT_VALUE") := by decide
  have hzeros : Json.Unescaped (List.replicate 63 48) := by decide
  have hdigits := hzeros.append (Json.plain_decText locality.toNat).unescaped
  have hlast := Json.ReadsMembers.last (ascii "sha256") (ascii "\n")
    (show Json.Blank (ascii "\n\t") by decide) (by decide) (Json.Reads.string hdigits) (by decide)
  have hindex := headerMember_reads hlast (ascii "index") (by omega) (by decide)
    (Json.reads_decText pcr)
  have hsubtype := headerMember_reads hindex (ascii "subtype") (by omega) (by decide)
    (Json.Reads.string hname)
  have htype := headerMember_reads hsubtype (ascii "type") (by omega) (by decide)
    (Json.Reads.string hvalue)
  refine ⟨_, ?_, ?_, Json.ReadsMembers.object (by decide) htype⟩
  · simp [initvalText, objectClose, Json.member, Json.quoted, ascii]
  · simp [Json.member, ascii]

theorem objectClose_head : ∀ c ∈ objectClose.head?, Json.isNumberChar c = false := by
  intro c hc
  obtain rfl : 44 = c := Option.some.inj hc
  rfl

theorem terminated_initval (pcr : Nat) (locality : UInt8) (fuel : Nat)
    (rest : Bytes) :
    Json.terminated objectClose (fuel + 1) (initvalText .json locality.toNat pcr ++ rest) =
      (Json.terminated objectClose fuel rest).map (initvalValue locality.toNat pcr :: ·) := by
  obtain ⟨object, htext, hlength, hreads⟩ := initval_reads pcr locality
  have hne : object ≠ [] := List.ne_nil_of_length_pos (by omega)
  rw [htext, List.append_assoc]
  exact Json.terminated_append hreads (by omega) hne objectClose_head (by decide) fuel rest

theorem length_digestMembers (digests : List Digest2) (tail : Bytes) :
    digests.length ≤ (digestMembers digests tail).length := by
  induction digests with
  | nil => exact Nat.zero_le _
  | cons d digests ih =>
      simp only [digestMembers, Json.member, List.length_append, List.length_cons]
      omega

theorem length_eventMembers (type pcr : Nat) (digests : List Digest2) (tail : Bytes) :
    digests.length + 6 ≤ (eventMembers type pcr digests tail).length := by
  have hdigests := length_digestMembers digests tail
  simp only [eventMembers, Json.member, List.length_append, List.length_cons]
  omega

theorem terminated_event {pcr : Nat} {description : Bytes} (type : Nat)
    (digests : List Digest2) (h : Json.Unescaped description) (fuel : Nat)
    (rest : Bytes) :
    Json.terminated objectClose (fuel + 1)
      (123 :: eventMembers type pcr digests (descriptionText .json description ++ rest)) =
      (Json.terminated objectClose fuel rest).map
        (eventValue type pcr digests description :: ·) := by
  have hlength := length_eventMembers type pcr digests (descriptionMember description)
  rw [descriptionText_eq, List.append_assoc, eventMembers_append]
  have hsteps : 6 + digests.length ≤
      2 * (123 :: eventMembers type pcr digests (descriptionMember description)).length + 2 := by
    rw [List.length_cons]
    omega
  exact Json.terminated_append (event_reads type digests h) hsteps (List.cons_ne_nil _ _)
    objectClose_head (by decide) fuel rest

/-- A complete object that is not followed by a comma and a newline. -/
theorem terminated_event_unfollowed {pcr : Nat} {description rest : Bytes} (type : Nat)
    (digests : List Digest2) (h : Json.Unescaped description)
    (hhead : ∀ c ∈ rest.head?, Json.isNumberChar c = false)
    (hrest : startsWith rest objectClose = false) (fuel : Nat) :
    Json.terminated objectClose fuel
      (123 :: eventMembers type pcr digests (descriptionMember description ++ rest)) = none := by
  have hlength := length_eventMembers type pcr digests (descriptionMember description)
  cases fuel with
  | zero => rfl
  | succ fuel =>
      rw [eventMembers_append, ← List.cons_append,
        Json.terminated_reads (event_reads type digests h) (by rw [List.length_cons]; omega)
          (List.cons_ne_nil _ _) hhead, hrest]
      rfl

/-! ## Objects that stay open -/

theorem digestMembers_none {tail : Bytes} (h : ∀ fuel, Json.members fuel tail = none)
    (digests : List Digest2) (fuel : Nat) :
    Json.members fuel (digestMembers digests tail) = none := by
  have hnewline : Json.Blank (ascii "\n") := by decide
  induction digests generalizing fuel with
  | nil => exact h fuel
  | cons d digests ih =>
      apply Json.members_member_none (by decide) (getAlgoStr_spec _).1
        (Json.Reads.string (Json.plain_hexText d.digest).unescaped)
      intro fuel
      rw [Json.members_append hnewline]
      exact ih fuel

theorem terminated_event_none {pcr : Nat} {tail : Bytes} (type : Nat) (digests : List Digest2)
    (h : ∀ fuel, Json.members fuel tail = none) (fuel : Nat) :
    Json.terminated objectClose fuel (123 :: eventMembers type pcr digests tail) = none := by
  have hnewline : Json.Blank (ascii "\n") := by decide
  have hvalue : Json.Unescaped (ascii "TPM Reference Value") := by decide
  apply Json.terminated_none (List.cons_ne_nil _ _)
  apply Json.value_object_none
  · rfl
  apply Json.members_member_none (by decide) (by decide) (Json.Reads.string hvalue)
  apply Json.members_member_none (by decide) (by decide)
    (Json.Reads.string (eventtypeToString_spec type).1)
  apply Json.members_member_none (by decide) (by decide) (Json.reads_decText pcr)
  intro fuel
  rw [Json.members_append hnewline]
  exact digestMembers_none h digests fuel

/-- Digests without a header are no objects. -/
theorem terminated_digests_none {digests : List Digest2} (hne : digests ≠ []) (tail : Bytes)
    (fuel : Nat) : Json.terminated objectClose fuel (digestMembers digests tail) = none := by
  cases digests with
  | nil => exact absurd rfl hne
  | cons d digests =>
      exact Json.terminated_member_none (by decide) (getAlgoStr_spec _).1 (by decide) (by decide)
        _ fuel

/-- What can follow the text of an event: nothing, a new object, or digests without a
header. In no case the members of an object go on and end. -/
structure Behind (rest : Bytes) : Prop where
  opens : rest = [] ∨ (∃ tail, rest = 123 :: 10 :: tail) ∨ ∃ tail, rest = 9 :: 34 :: tail
  members : ∀ fuel, Json.members fuel rest = none

theorem Behind.nil : Behind [] where
  opens := Or.inl rfl
  members := Json.members_none rfl

theorem Behind.event (type pcr : Nat) (digests : List Digest2) (tail : Bytes) :
    Behind (123 :: eventMembers type pcr digests tail) where
  opens := Or.inr (Or.inl ⟨_, rfl⟩)
  members := Json.members_none rfl

theorem Behind.digests {rest : Bytes} (h : Behind rest) (digests : List Digest2) :
    Behind (digestMembers digests rest) where
  opens := by
    cases digests with
    | nil => exact h.opens
    | cons d digests => exact Or.inr (Or.inr ⟨_, rfl⟩)
  members := digestMembers_none h.members digests

section Behind

variable {rest : Bytes} (h : Behind rest)
include h

theorem Behind.head : ∀ c ∈ rest.head?, Json.isNumberChar c = false := by
  rcases h.opens with rfl | ⟨tail, rfl⟩ | ⟨tail, rfl⟩ <;> simp [Json.isNumberChar, Json.isDigit]

theorem Behind.token {c : UInt8} (hbrace : c ≠ 123) (hquote : c ≠ 34) :
    Json.token c rest = none := by
  rcases h.opens with rfl | ⟨tail, rfl⟩ | ⟨tail, rfl⟩
  · rfl
  · change (if 123 = c then _ else none) = none
    exact if_neg (Ne.symm hbrace)
  · change (if 34 = c then _ else none) = none
    exact if_neg (Ne.symm hquote)

theorem Behind.not_comma : startsWith rest objectClose = false := by
  rcases h.opens with rfl | ⟨tail, rfl⟩ | ⟨tail, rfl⟩ <;> rfl

theorem Behind.not_newline : startsWith (44 :: rest) objectClose = false := by
  rcases h.opens with rfl | ⟨tail, rfl⟩ | ⟨tail, rfl⟩ <;> rfl

theorem Behind.string : Json.stringBody 0 rest = none := by
  rcases h.opens with rfl | ⟨tail, rfl⟩ | ⟨tail, rfl⟩ <;> rfl

end Behind

theorem cut_descriptionText (description : Bytes) : cut (descriptionText .json description) =
    ascii "\t\"description\":\"" ++
      (description.take 4079 ++ (ascii "\"\n\x7d,\n").take (4079 - description.length)) := by
  have hopening : (ascii "\t\"description\":\"").length = 16 := by decide
  rw [cut, descriptionText, List.append_assoc, List.take_append, List.take_append, hopening,
    List.take_of_length_le (by omega)]

/-- The end of a long description does not get through the formatting buffer. -/
theorem terminated_cut_none {pcr : Nat} {description rest : Bytes} (type : Nat)
    (digests : List Digest2) (h : Json.Unescaped description)
    (hlong : 4074 < description.length) (hrest : Behind rest) (fuel : Nat) :
    Json.terminated objectClose fuel
      (123 :: eventMembers type pcr digests (cut (descriptionText .json description) ++ rest)) =
      none := by
  have hlengths : description.length = 4075 ∨ description.length = 4076 ∨
      description.length = 4077 ∨ description.length = 4078 ∨ 4079 ≤ description.length := by
    omega
  rw [cut_descriptionText]
  rcases hlengths with hlength | hlength | hlength | hlength | hlength
  · -- the newline behind the object is lost
    rw [List.take_of_length_le (by omega), hlength]
    have hshape : ascii "\t\"description\":\"" ++
        (description ++ (ascii "\"\n\x7d,\n").take (4079 - 4075)) ++ rest =
        descriptionMember description ++ (44 :: rest) := by
      simp [descriptionMember, Json.member, Json.quoted, ascii]
    rw [hshape]
    exact terminated_event_unfollowed type digests h
      (by simp [Json.isNumberChar, Json.isDigit]) hrest.not_newline fuel
  · rw [List.take_of_length_le (by omega), hlength]
    have hshape : ascii "\t\"description\":\"" ++
        (description ++ (ascii "\"\n\x7d,\n").take (4079 - 4076)) ++ rest =
        descriptionMember description ++ rest := by
      simp [descriptionMember, Json.member, Json.quoted, ascii]
    rw [hshape]
    exact terminated_event_unfollowed type digests h hrest.head hrest.not_comma fuel
  · -- the closing brace is lost
    rw [List.take_of_length_le (by omega), hlength]
    have hshape : ascii "\t\"description\":\"" ++
        (description ++ (ascii "\"\n\x7d,\n").take (4079 - 4077)) ++ rest =
        Json.member (ascii "\t") (ascii "description") (Json.quoted description ++ 10 :: rest) := by
      simp [Json.member, Json.quoted, ascii]
    have hblank : Json.Blank [10] := by decide
    rw [hshape]
    refine terminated_event_none type digests (Json.members_member_open (by decide) (by decide)
      (Json.Reads.string h) (by simp [Json.isNumberChar, Json.isDigit]) ?_ ?_) fuel
    · exact (Json.token_append hblank 44 rest).trans (hrest.token (by decide) (by decide))
    · exact (Json.token_append hblank 125 rest).trans (hrest.token (by decide) (by decide))
  · rw [List.take_of_length_le (by omega), hlength]
    have hshape : ascii "\t\"description\":\"" ++
        (description ++ (ascii "\"\n\x7d,\n").take (4079 - 4078)) ++ rest =
        Json.member (ascii "\t") (ascii "description") (Json.quoted description ++ rest) := by
      simp [Json.member, Json.quoted, ascii]
    rw [hshape]
    exact terminated_event_none type digests (Json.members_member_open (by decide) (by decide)
      (Json.Reads.string h) hrest.head (hrest.token (by decide) (by decide))
      (hrest.token (by decide) (by decide))) fuel
  · -- the closing quote is lost
    have hnothing : (ascii "\"\n\x7d,\n").take (4079 - description.length) = [] := by
      rw [Nat.sub_eq_zero_of_le hlength]
      rfl
    have hshape : ascii "\t\"description\":\"" ++ (description.take 4079 ++ []) ++ rest =
        Json.member (ascii "\t") (ascii "description") (34 :: (description.take 4079 ++ rest)) := by
      simp [Json.member, ascii]
    have hkept : Json.Unescaped (description.take 4079) := fun c hc => h c (List.mem_of_mem_take hc)
    rw [hnothing, hshape]
    exact terminated_event_none type digests (Json.members_string_none (by decide) (by decide)
      (Json.stringBody_unescaped_none hkept hrest.string)) fuel

/-! ## The text of an event -/

/-- What the formatting buffer passes on of the data of an event with an action. -/
theorem dataTexts_cut {type : Nat} (hno : type ≠ evNoAction) (size : Nat) (data : Bytes) :
    (dataTexts .json type size data).flatMap cut =
      if size = 0 then []
      else if type = evIpl then descriptionText .json (printedDescription type size data)
      else cut (descriptionText .json (printedDescription type size data)) := by
  unfold dataTexts printedDescription
  by_cases hsize : size = 0
  · rw [if_pos hsize, if_pos hsize]
    rfl
  rw [if_neg hsize, if_neg hsize]
  by_cases hvariable : isVariableEvent type
  · have hipl : type ≠ evIpl := by
      rintro rfl
      exact absurd hvariable (by decide)
    rw [if_pos hvariable, if_neg hipl, if_pos hvariable, List.flatMap_singleton]
  rw [if_neg hvariable, if_neg hvariable]
  by_cases hipl : type = evIpl
  · have hopening : cut (iplOpening .json) = ascii "\t\"description\":\"" := by decide
    have hclosing : cut (ascii "\"\n\x7d,\n") = ascii "\"\n\x7d,\n" := by decide
    rw [if_pos hipl, if_pos hipl, if_pos hipl, if_pos rfl, List.cons_append, List.flatMap_cons,
      List.flatMap_append, List.flatMap_singleton, hopening, hclosing, descriptionText,
      List.append_assoc]
  rw [if_neg hipl, if_neg hipl, if_neg hipl]
  by_cases hgpt : type = evEfiGptEvent
  · rw [if_pos hgpt, if_pos hgpt, List.flatMap_singleton]
  · rw [if_neg hgpt, if_neg hno, if_neg hgpt, List.flatMap_singleton]

/-- The initial value of a register in front of its first event. -/
def initvalPart (pcr : Nat) (locality : Option UInt8) : Bytes :=
  locality.toList.flatMap fun locality => initvalText .json locality.toNat pcr

/-- The entry of an event behind the initial value. -/
def eventPart (pending : Bool) (mem : Bytes) (rest : Bytes) : Bytes :=
  if (eventAt mem).isNoAction then
    digestMembers (unskipped ((eventAt mem).flag pending) (eventAt mem).digests) rest
  else
    123 :: eventMembers (eventAt mem).eventType (eventAt mem).pcrIndex
      (unskipped ((eventAt mem).flag pending) (eventAt mem).digests)
      ((dataTexts .json (eventAt mem).eventType (dataSizeAt mem) (dataAt mem)).flatMap cut ++ rest)

theorem entryText_eq {mem : Bytes} (first pending : Bool) (hpcr : (eventAt mem).pcrIndex < 32)
    (rest : Bytes) :
    ((entryAt .json first pending mem).texts .json (eventAt mem).pcrIndex).flatMap cut ++ rest =
      initvalPart (eventAt mem).pcrIndex (entryAt .json first pending mem).locality ++
        eventPart pending mem rest := by
  have hinitval : ((entryAt .json first pending mem).locality.toList.map
      fun locality => initvalText .json locality.toNat (eventAt mem).pcrIndex).flatMap cut =
      initvalPart (eventAt mem).pcrIndex (entryAt .json first pending mem).locality := by
    unfold initvalPart
    rw [List.flatMap_map]
    exact List.flatMap_congr fun locality _ =>
      cut_of_length (initvalText_short .json locality (by omega))
  rw [Entry.texts, Entry.headTexts, List.flatMap_append, List.flatMap_append, List.flatMap_append,
    hinitval, List.append_assoc, List.append_assoc]
  congr 1
  unfold eventPart entryAt
  rw [digestTexts_cut]
  by_cases hno : (eventAt mem).isNoAction
  · have htype : (eventAt mem).eventType = evNoAction := of_decide_eq_true hno
    rw [if_pos hno, if_pos hno, htype, dataTexts_noAction, ← digestTexts_append]
    simp
  · rw [if_neg hno, if_neg hno, ← eventText_eq]
    simp [cut_of_length (headerText_length _ hpcr), dataSizeAt]

theorem Behind.part {rest : Bytes} (h : Behind rest) (pending : Bool) (mem : Bytes) :
    Behind (eventPart pending mem rest) := by
  unfold eventPart
  split_ifs
  · exact h.digests _
  · exact Behind.event _ _ _ _

theorem behind_entriesFrom {pcr : Nat} (sites : List Bytes) (pending : Bool)
    (h : ∀ site ∈ sites, (eventAt site).pcrIndex < 32) :
    Behind (entriesText .json pcr (entriesFrom .json pcr true pending sites)) := by
  induction sites generalizing pending with
  | nil => exact Behind.nil
  | cons mem sites ih =>
      have hsites := ih ((eventAt mem).flagAfter pending) (List.forall_mem_cons.mp h).2
      rw [entriesFrom]
      by_cases hpcr : (eventAt mem).pcrIndex = pcr
      · rw [if_pos hpcr, entriesText_cons]
        subst hpcr
        rw [entryText_eq _ _ (h mem List.mem_cons_self)]
        exact hsites.part pending mem
      · rw [if_neg hpcr]
        exact hsites

/-! ## The objects of a log -/

theorem map_cons_eq_some {item : Json.Value} {items : List Json.Value}
    {parsed : Option (List Json.Value)} :
    parsed.map (item :: ·) = some (item :: items) ↔ parsed = some items := by
  cases parsed <;> simp

theorem terminated_initvalPart (pcr : Nat) (locality : Option UInt8)
    {rest : Bytes} {objects : List Json.Value} {fuel : Nat}
    (hfuel : (initvalPart pcr locality ++ rest).length < fuel) :
    ∃ left, rest.length < left ∧
      (Json.terminated objectClose fuel (initvalPart pcr locality ++ rest) =
          some (locality.toList.map (fun locality => initvalValue locality.toNat pcr) ++ objects) ↔
        Json.terminated objectClose left rest = some objects) := by
  cases locality with
  | none => exact ⟨fuel, hfuel, Iff.rfl⟩
  | some byte =>
      obtain ⟨object, htext, hlength, _⟩ := initval_reads pcr byte
      have hpart : initvalPart pcr (some byte) = initvalText .json byte.toNat pcr :=
        List.flatMap_singleton ..
      rw [hpart] at hfuel ⊢
      rw [htext, List.length_append, List.length_append] at hfuel
      obtain ⟨left, rfl⟩ : ∃ n, fuel = n + 1 := ⟨fuel - 1, by omega⟩
      refine ⟨left, by omega, ?_⟩
      rw [terminated_initval pcr byte]
      exact map_cons_eq_some

theorem terminated_noAction {mem : Bytes} (hno : (eventAt mem).isNoAction = true)
    (pending : Bool) {rest : Bytes} {objects : List Json.Value} {fuel : Nat}
    (hfuel : (eventPart pending mem rest).length < fuel) :
    ∃ left, rest.length < left ∧
      (Json.terminated objectClose fuel (eventPart pending mem rest) = some objects ↔
        (eventAt mem).digests.tail = [] ∧
          Json.terminated objectClose left rest = some objects) := by
  have hpart : eventPart pending mem rest = digestMembers (eventAt mem).digests.tail rest := by
    unfold eventPart Event.flag unskipped
    rw [if_pos hno, hno, Bool.true_or, if_pos rfl]
  rw [hpart] at hfuel ⊢
  by_cases htail : (eventAt mem).digests.tail = []
  · rw [htail] at hfuel ⊢
    exact ⟨fuel, hfuel, (and_iff_right rfl).symm⟩
  · refine ⟨rest.length + 1, Nat.lt_succ_self _, ?_⟩
    rw [terminated_digests_none htail]
    simp [htail]

theorem eventPart_action {mem : Bytes} (hno : (eventAt mem).isNoAction = false) (pending : Bool)
    (rest : Bytes) : eventPart pending mem rest =
      123 :: eventMembers (eventAt mem).eventType (eventAt mem).pcrIndex
        (unskipped ((eventAt mem).flag pending) (eventAt mem).digests)
        ((if dataSizeAt mem = 0 then []
          else if (eventAt mem).eventType = evIpl then descriptionText .json (descriptionAt mem)
          else cut (descriptionText .json (descriptionAt mem))) ++ rest) := by
  have htype : (eventAt mem).eventType ≠ evNoAction := of_decide_eq_false hno
  have hdata := dataTexts_cut htype (dataSizeAt mem) (dataAt mem)
  unfold eventPart
  rw [hno, if_neg Bool.false_ne_true, hdata]
  rfl

/-- The whole description gets through the formatting buffer. -/
theorem eventPart_fits {mem : Bytes} (hno : (eventAt mem).isNoAction = false)
    (hsize : dataSizeAt mem ≠ 0)
    (hfits : (eventAt mem).eventType = evIpl ∨ (descriptionAt mem).length ≤ 4074)
    (pending : Bool) (rest : Bytes) : eventPart pending mem rest =
      123 :: eventMembers (eventAt mem).eventType (eventAt mem).pcrIndex
        (unskipped ((eventAt mem).flag pending) (eventAt mem).digests)
        (descriptionText .json (descriptionAt mem) ++ rest) := by
  rw [eventPart_action hno, if_neg hsize]
  rcases hfits with hipl | hlength
  · rw [if_pos hipl]
  · have hshort : (descriptionText .json (descriptionAt mem)).length ≤ 4095 := by
      simp only [descriptionText, List.length_append]
      have hopening : (ascii "\t\"description\":\"").length = 16 := by decide
      have hclosing : (ascii "\"\n\x7d,\n").length = 5 := by decide
      omega
    rw [cut_of_length hshort, ite_self]

theorem terminated_action {mem : Bytes} (hno : (eventAt mem).isNoAction = false)
    (pending : Bool)
    (hplain : dataSizeAt mem ≠ 0 → Json.Unescaped (descriptionAt mem))
    {rest : Bytes} (hrest : Behind rest) {objects : List Json.Value} {fuel : Nat}
    (hfuel : (eventPart pending mem rest).length < fuel) :
    ∃ left, rest.length < left ∧
      (Json.terminated objectClose fuel (eventPart pending mem rest) =
          some (eventValue (eventAt mem).eventType (eventAt mem).pcrIndex
            (unskipped ((eventAt mem).flag pending) (eventAt mem).digests) (descriptionAt mem) ::
            objects) ↔
        (dataSizeAt mem ≠ 0 ∧
          ((eventAt mem).eventType = evIpl ∨ (descriptionAt mem).length ≤ 4074)) ∧
          Json.terminated objectClose left rest = some objects) := by
  by_cases hsize : dataSizeAt mem = 0
  · refine ⟨rest.length + 1, Nat.lt_succ_self _, ?_⟩
    rw [eventPart_action hno, if_pos hsize, List.nil_append,
      terminated_event_none _ _ hrest.members]
    exact iff_of_false (fun h => nomatch h) fun h => h.1.1 hsize
  by_cases hfits : (eventAt mem).eventType = evIpl ∨ (descriptionAt mem).length ≤ 4074
  · rw [eventPart_fits hno hsize hfits] at hfuel ⊢
    rw [eventMembers_append, List.length_cons, List.length_append] at hfuel
    obtain ⟨left, rfl⟩ : ∃ n, fuel = n + 1 := ⟨fuel - 1, by omega⟩
    refine ⟨left, by omega, ?_⟩
    rw [terminated_event _ _ (hplain hsize), map_cons_eq_some]
    exact (and_iff_right ⟨hsize, hfits⟩).symm
  · have hipl : (eventAt mem).eventType ≠ evIpl := fun h => hfits (Or.inl h)
    have hlong : 4074 < (descriptionAt mem).length := Nat.lt_of_not_le fun h => hfits (Or.inr h)
    refine ⟨rest.length + 1, Nat.lt_succ_self _, ?_⟩
    rw [eventPart_action hno, if_neg hsize, if_neg hipl,
      terminated_cut_none _ _ (hplain hsize) hlong hrest]
    exact iff_of_false (fun h => nomatch h) fun h => hfits h.1.2

theorem terminated_eventPart {mem : Bytes} (first pending : Bool)
    (hplain : (eventAt mem).isNoAction = false → dataSizeAt mem ≠ 0 →
      Json.Unescaped (descriptionAt mem))
    {rest : Bytes} (hrest : Behind rest) {objects : List Json.Value} {fuel : Nat}
    (hfuel : (eventPart pending mem rest).length < fuel) :
    ∃ left, rest.length < left ∧
      (Json.terminated objectClose fuel (eventPart pending mem rest) =
          some ((entryAt .json first pending mem).type.toList.map
            (fun type => eventValue type (eventAt mem).pcrIndex
              (entryAt .json first pending mem).digests (descriptionAt mem)) ++ objects) ↔
        CompleteAt mem ∧ Json.terminated objectClose left rest = some objects) := by
  unfold CompleteAt entryAt
  cases hno : (eventAt mem).isNoAction with
  | true => exact terminated_noAction hno pending hfuel
  | false => exact terminated_action hno pending (hplain hno) hrest hfuel

theorem terminated_entriesFrom {pcr : Nat} (sites : List Bytes) (seen pending : Bool)
    {fuel : Nat} (hindices : ∀ site ∈ sites, (eventAt site).pcrIndex < 32)
    (hplain : ∀ site ∈ sites, (eventAt site).pcrIndex = pcr →
      (eventAt site).isNoAction = false → dataSizeAt site ≠ 0 → Json.Unescaped (descriptionAt site))
    (hfuel : (entriesText .json pcr (entriesFrom .json pcr seen pending sites)).length < fuel) :
    Json.terminated objectClose fuel
        (entriesText .json pcr (entriesFrom .json pcr seen pending sites)) =
      some (objectsFrom pcr seen pending sites) ↔
    ∀ site ∈ sites, (eventAt site).pcrIndex = pcr → CompleteAt site := by
  induction sites generalizing seen pending fuel with
  | nil =>
      cases fuel with
      | zero => cases hfuel
      | succ fuel =>
          refine iff_of_true rfl fun site hsite => ?_
          cases hsite
  | cons mem sites ih =>
      obtain ⟨hindex, hindices⟩ := List.forall_mem_cons.mp hindices
      obtain ⟨hplainHere, hplain⟩ := List.forall_mem_cons.mp hplain
      rw [List.forall_mem_cons]
      rw [entriesFrom] at hfuel ⊢
      unfold objectsFrom
      by_cases hpcr : (eventAt mem).pcrIndex = pcr
      · subst hpcr
        rw [if_pos rfl, entriesText_cons, entryText_eq _ _ hindex] at hfuel ⊢
        rw [if_pos rfl]
        obtain ⟨left, hleft, hinitval⟩ := terminated_initvalPart _ _ hfuel
        obtain ⟨left', hleft', hevent⟩ := terminated_eventPart (!seen) pending
          (hplainHere rfl) (behind_entriesFrom sites _ hindices) hleft
        rw [hinitval, hevent, ih true _ hindices hplain hleft']
        exact and_congr_left fun _ => ⟨fun h _ => h, fun h => h rfl⟩
      · rw [if_neg hpcr] at hfuel ⊢
        rw [if_neg hpcr, ih seen _ hindices hplain hfuel]
        exact (and_iff_right fun h => absurd h hpcr).symm

/-- No description printed for a register has a quote, a backslash or a control character. -/
def PlainDescriptions (b : EventBuf) (pcr : Nat) : Prop :=
  ∀ site ∈ b.sites, (eventAt site).pcrIndex = pcr →
    (eventAt site).isNoAction = false → dataSizeAt site ≠ 0 → Json.Unescaped (descriptionAt site)

instance (b : EventBuf) (pcr : Nat) : Decidable (PlainDescriptions b pcr) :=
  List.decidableBAll (fun site => (eventAt site).pcrIndex = pcr →
    (eventAt site).isNoAction = false → dataSizeAt site ≠ 0 → Json.Unescaped (descriptionAt site))
    b.sites

instance (mem : Bytes) : Decidable (CompleteAt mem) :=
  inferInstanceAs (Decidable (if (eventAt mem).isNoAction = true then _ else _))

theorem EventBuf.Parsed.objects {b : EventBuf} {pcrNums : List Nat} {s : CbData} {pcr : Nat}
    (h : b.Parsed .json pcrNums s) (hasked : pcr ∈ pcrNums)
    (hplain : PlainDescriptions b pcr) : ObjectsComplete b s pcr ↔
      ∀ site ∈ b.sites, (eventAt site).pcrIndex = pcr → CompleteAt site := by
  unfold ObjectsComplete
  rw [h.buffer pcr hasked]
  exact terminated_entriesFrom b.sites false false h.indices hplain (Nat.lt_succ_self _)

/-- The event log of a register is a sequence of complete objects exactly if every event of
the register is complete. -/
theorem objectsComplete_iff (md : Md 32) (b : EventBuf) (pcrNums : List Nat) (s' : CbData)
    (pcr : Nat) (hagile : b.CryptoAgile)
    (haccept : run (tpmParseEventlog md b) (CbData.start .json pcrNums) = .ok (1, s'))
    (hasked : pcr ∈ pcrNums) (hplain : PlainDescriptions b pcr) :
    ObjectsComplete b s' pcr ↔
      ∀ site ∈ b.sites, (eventAt site).pcrIndex = pcr → CompleteAt site :=
  (tpmParseEventlog_written hagile haccept).objects hasked hplain

theorem objectsComplete_iff_boot :
    ∃ s', run (tpmParseEventlog Sha256.sha256 bootBuf) (CbData.start .json [0, 7]) = .ok (1, s') ∧
      (ObjectsComplete bootBuf s' 0 ↔
        ∀ site ∈ bootBuf.sites, (eventAt site).pcrIndex = 0 → CompleteAt site) := by
  obtain ⟨s', haccept, _⟩ := exists_accepted Sha256.sha256 bootBuf (CbData.start .json [0, 7])
    [.skip, .pass, .extend, .extend] (by decide +kernel)
  have hplain : PlainDescriptions bootBuf 0 := by decide +kernel
  exact ⟨s', haccept, objectsComplete_iff Sha256.sha256 bootBuf [0, 7] s' 0 bootBuf_cryptoAgile
    haccept List.mem_cons_self hplain⟩

/-- A separator without data. -/
def emptySeparatorBuf : EventBuf :=
  shortBuf (specidLog ++ (toLE 4 7 ++ toLE 4 4 ++ toLE 4 1 ++ toLE 2 tpm2AlgSha256 ++ zeros 32
    ++ toLE 4 0)) (by decide)

/-- Its object is not closed. -/
theorem objectsIncomplete_emptySeparator :
    ∃ s', run (tpmParseEventlog Sha256.sha256 emptySeparatorBuf) (CbData.start .json [7]) =
        .ok (1, s') ∧
      emptySeparatorBuf.CryptoAgile ∧ PlainDescriptions emptySeparatorBuf 7 ∧
      ¬ObjectsComplete emptySeparatorBuf s' 7 := by
  obtain ⟨s', haccept, _⟩ := exists_accepted Sha256.sha256 emptySeparatorBuf
    (CbData.start .json [7]) [.extend] (by decide +kernel)
  have hagile : emptySeparatorBuf.CryptoAgile := ⟨by decide +kernel, by decide +kernel⟩
  have hplain : PlainDescriptions emptySeparatorBuf 7 := by decide +kernel
  have hopen : ¬∀ site ∈ emptySeparatorBuf.sites, (eventAt site).pcrIndex = 7 →
      CompleteAt site := by decide +kernel
  refine ⟨s', haccept, hagile, hplain, fun h => hopen ?_⟩
  exact ((tpmParseEventlog_written hagile haccept).objects List.mem_cons_self hplain).mp h

end MeasuredBoot.SrtmLog
