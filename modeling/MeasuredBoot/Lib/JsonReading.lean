import MeasuredBoot.Lib.Json

/-! # More text behind a JSON value

The reader does not look behind the value it returns, unless that is a number at the
very end.
-/

namespace Json

open Binary

/-! ## Tokens and literals -/

section Extend

variable {text rest : Bytes}

theorem skipSpace_extend (h : skipSpace text ≠ []) (more : Bytes) :
    skipSpace (text ++ more) = skipSpace text ++ more := by
  unfold skipSpace at h ⊢
  rw [List.dropWhile_append, if_neg]
  rw [List.isEmpty_iff]
  exact h

theorem token_eq {d : UInt8} (h : skipSpace text = d :: rest) (c : UInt8) :
    token c text = if d = c then some rest else none := by
  unfold token
  rw [h]

theorem skipSpace_of_token {c : UInt8} (h : token c text = some rest) :
    skipSpace text = c :: rest := by
  cases hskip : skipSpace text with
  | nil =>
      unfold token at h
      rw [hskip] at h
      cases h
  | cons d tail =>
      rw [token_eq hskip] at h
      split at h
      · next hd =>
          obtain rfl := Option.some.inj h
          rw [hd]
      · cases h

theorem token_extend {c : UInt8} (h : token c text = some rest) (more : Bytes) :
    token c (text ++ more) = some (rest ++ more) := by
  have hskip := skipSpace_of_token h
  have hmore : skipSpace (text ++ more) = c :: (rest ++ more) := by
    rw [skipSpace_extend (by rw [hskip]; exact List.cons_ne_nil _ _), hskip, List.cons_append]
  rw [token_eq hmore, if_pos rfl]

theorem token_extend_none {c : UInt8} (hne : skipSpace text ≠ []) (h : token c text = none)
    (more : Bytes) : token c (text ++ more) = none := by
  obtain ⟨d, tail, hskip⟩ := List.exists_cons_of_ne_nil hne
  have hmore : skipSpace (text ++ more) = d :: (tail ++ more) := by
    rw [skipSpace_extend hne, hskip, List.cons_append]
  rw [token_eq hskip] at h
  rw [token_eq hmore]
  split at h
  · cases h
  · next hd => exact if_neg hd

theorem escapeLength_extend {n : Nat} (h : escapeLength text = some n) (more : Bytes) :
    escapeLength (text ++ more) = some n := by
  cases text with
  | nil => simp [escapeLength, ascii] at h
  | cons c tail =>
      unfold escapeLength at h ⊢
      simp only [List.cons_append, List.head?_cons, List.headD_cons, List.drop_one,
        List.tail_cons, List.length_cons] at h ⊢
      split at h
      · next hc =>
          rw [if_pos hc]
          split at h
          · next hdigits =>
              have hlen : 4 ≤ tail.length := by omega
              have htake : (tail ++ more).take 4 = tail.take 4 := by
                rw [List.take_append_of_le_length hlen]
              rw [htake, if_pos ⟨by rw [List.length_append]; omega, hdigits.2⟩]
              exact h
          · cases h
      · next hc =>
          rw [if_neg hc]
          exact h

theorem stringBody_extend {escaped : Nat} {body : Bytes}
    (h : stringBody escaped text = some (body, rest)) (more : Bytes) :
    stringBody escaped (text ++ more) = some (body, rest ++ more) := by
  induction text generalizing escaped body with
  | nil => simp [stringBody] at h
  | cons c text ih =>
      rw [List.cons_append]
      cases escaped with
      | succ escaped =>
          rw [stringBody, Option.map_eq_some_iff] at h ⊢
          obtain ⟨r, hr, heq⟩ := h
          cases heq
          exact ⟨_, ih hr, rfl⟩
      | zero =>
          rw [stringBody] at h ⊢
          split_ifs at h ⊢ with hquote hbackslash hcontrol
          · cases h
            rfl
          · cases hn : escapeLength text with
            | none =>
                rw [hn] at h
                cases h
            | some n =>
                rw [hn] at h
                rw [escapeLength_extend hn]
                dsimp only at h ⊢
                rw [Option.map_eq_some_iff] at h ⊢
                obtain ⟨r, hr, heq⟩ := h
                cases heq
                exact ⟨_, ih hr, rfl⟩
          · rw [Option.map_eq_some_iff] at h ⊢
            obtain ⟨r, hr, heq⟩ := h
            cases heq
            exact ⟨_, ih hr, rfl⟩

theorem startsWith_extend {word : Bytes} (h : startsWith text word = true) (more : Bytes) :
    startsWith (text ++ more) word = true := by
  rw [startsWith, List.isPrefixOf_iff_prefix] at h ⊢
  exact h.trans (List.prefix_append text more)

theorem drop_extend {word : Bytes} (h : startsWith text word = true) (more : Bytes) :
    (text ++ more).drop word.length = text.drop word.length ++ more := by
  rw [startsWith, List.isPrefixOf_iff_prefix] at h
  exact List.drop_append_of_le_length h.length_le

/-- No word starts where another character stands. -/
theorem startsWith_of_head {c d : UInt8} (hne : d ≠ c) (tail word : Bytes) :
    startsWith (c :: tail) (d :: word) = false := by
  rw [startsWith, List.isPrefixOf_cons_cons, beq_eq_false_iff_ne.mpr hne, Bool.false_and]

theorem head_of_startsWith {d : UInt8} {word : Bytes} (h : startsWith text (d :: word) = true) :
    ∃ tail, text = d :: tail := by
  rw [startsWith, List.isPrefixOf_iff_prefix] at h
  obtain ⟨tail, rfl⟩ := h
  exact ⟨word ++ tail, rfl⟩

theorem number_extend {item : Value} (h : number text = some (item, rest)) (hrest : rest ≠ [])
    (more : Bytes) : number (text ++ more) = some (item, rest ++ more) := by
  unfold number at h ⊢
  dsimp only at h ⊢
  split at h
  · next hvalid =>
      have hpair := Option.some.inj h
      have hdrop : text.drop (text.takeWhile isNumberChar).length = rest :=
        congrArg Prod.snd hpair
      have hlt : (text.takeWhile isNumberChar).length < text.length := by
        by_contra hge
        rw [List.drop_eq_nil_of_le (by omega)] at hdrop
        exact hrest hdrop.symm
      have hshown : (text ++ more).takeWhile isNumberChar = text.takeWhile isNumberChar := by
        rw [List.takeWhile_append, if_neg (by omega)]
      have hitem : Value.number (text.takeWhile isNumberChar) = item := congrArg Prod.fst hpair
      rw [hshown, if_pos hvalid, List.drop_append_of_le_length (by omega), hdrop, hitem]
  · cases h

theorem number_head {item : Value} (h : number text = some (item, rest)) :
    (∃ shown, item = .number shown) ∧ ∃ c tail, text = c :: tail ∧ isNumberChar c = true := by
  unfold number at h
  dsimp only at h
  split at h
  · next hvalid =>
      refine ⟨⟨_, (congrArg Prod.fst (Option.some.inj h)).symm⟩, ?_⟩
      cases text with
      | nil => cases hvalid
      | cons c tail =>
          refine ⟨c, tail, rfl, ?_⟩
          by_contra hc
          rw [List.takeWhile_cons_of_neg hc] at hvalid
          cases hvalid
  · cases h

/-- Only a number can go on behind what was read. -/
def Ends (item : Value) (rest : Bytes) : Prop := rest = [] → ∀ shown, item ≠ .number shown

theorem literal_extend {item : Value} (h : literal text = some (item, rest))
    (hends : Ends item rest) (more : Bytes) :
    literal (text ++ more) = some (item, rest ++ more) := by
  have hne : skipSpace text ≠ [] := by
    intro hnil
    rw [literal, hnil] at h
    cases h
  unfold literal at h ⊢
  rw [skipSpace_extend hne]
  dsimp only at h ⊢
  set shown := skipSpace text with hshown
  split_ifs at h with hnull htrue hfalse
  · cases h
    rw [if_pos (startsWith_extend hnull more)]
    exact congrArg (fun tail => some (Value.null, tail)) (drop_extend hnull more)
  · cases h
    obtain ⟨tail, htail⟩ := head_of_startsWith htrue
    have hother : startsWith (shown ++ more) (ascii "null") = false := by
      rw [htail]
      exact startsWith_of_head (by decide) _ _
    rw [hother, if_neg Bool.false_ne_true, if_pos (startsWith_extend htrue more)]
    exact congrArg (fun tail => some (Value.bool true, tail)) (drop_extend htrue more)
  · cases h
    obtain ⟨tail, htail⟩ := head_of_startsWith hfalse
    have hother : startsWith (shown ++ more) (ascii "null") = false ∧
        startsWith (shown ++ more) (ascii "true") = false := by
      rw [htail]
      exact ⟨startsWith_of_head (by decide) _ _, startsWith_of_head (by decide) _ _⟩
    rw [hother.1, hother.2, if_neg Bool.false_ne_true, if_neg Bool.false_ne_true,
      if_pos (startsWith_extend hfalse more)]
    exact congrArg (fun tail => some (Value.bool false, tail)) (drop_extend hfalse more)
  · obtain ⟨⟨digits, hdigits⟩, c, tail, htail, hc⟩ := number_head h
    have hrest : rest ≠ [] := fun hnil => hends hnil digits hdigits
    have hother : ∀ (d : UInt8) (word : Bytes), isNumberChar d = false →
        startsWith (shown ++ more) (d :: word) = false := by
      intro d word hd
      rw [htail]
      refine startsWith_of_head ?_ _ _
      rintro rfl
      rw [hd] at hc
      cases hc
    have hnull' : startsWith (shown ++ more) (ascii "null") = false := hother 110 _ rfl
    have htrue' : startsWith (shown ++ more) (ascii "true") = false := hother 116 _ rfl
    have hfalse' : startsWith (shown ++ more) (ascii "false") = false := hother 102 _ rfl
    rw [hnull', htrue', hfalse', if_neg Bool.false_ne_true, if_neg Bool.false_ne_true,
      if_neg Bool.false_ne_true]
    exact number_extend h hrest more

end Extend

/-! ## Values -/

theorem skipSpace_ne_nil {text tail : Bytes} {c : UInt8} (h : token c text = some tail) :
    skipSpace text ≠ [] := by
  rw [skipSpace_of_token h]
  exact List.cons_ne_nil _ _

section Lists

variable {α : Type}

/-- A reader that does not look behind what it returns. -/
def Stable (read : Bytes → Option (α × Bytes)) : Prop :=
  ∀ {text rest : Bytes} {a : α}, read text = some (a, rest) →
    ∀ more, read (text ++ more) = some (a, rest ++ more)

/-- What stands behind an item: a comma and the other items, or the closing bracket. -/
def follow (close : UInt8) (read : Bytes → Option (List α × Bytes)) (item : α) (text : Bytes) :
    Option (List α × Bytes) :=
  match token 44 text with
  | some rest => (read rest).map fun r => (item :: r.1, r.2)
  | none => (token close text).map fun rest => ([item], rest)

/-- What stands behind an opening bracket: the closing one, or the items up to it. -/
def body (close : UInt8) (read : Bytes → Option (List α × Bytes)) (make : List α → Value)
    (text : Bytes) : Option (Value × Bytes) :=
  match token close text with
  | some rest => some (make [], rest)
  | none => (read text).map fun r => (make r.1, r.2)

variable {close : UInt8} {read : Bytes → Option (List α × Bytes)} {text rest : Bytes}

theorem follow_ne_nil {item : α} {items : List α}
    (h : follow close read item text = some (items, rest)) : skipSpace text ≠ [] := by
  unfold follow at h
  cases hcomma : token 44 text with
  | some tail => exact skipSpace_ne_nil hcomma
  | none =>
      rw [hcomma] at h
      obtain ⟨tail, hclose, _⟩ := Option.map_eq_some_iff.mp h
      exact skipSpace_ne_nil hclose

theorem follow_extend (hread : Stable read) {item : α} {items : List α}
    (h : follow close read item text = some (items, rest)) (more : Bytes) :
    follow close read item (text ++ more) = some (items, rest ++ more) := by
  have hne := follow_ne_nil h
  unfold follow at h ⊢
  cases hcomma : token 44 text with
  | some tail =>
      rw [hcomma] at h
      obtain ⟨r, hr, hresult⟩ := Option.map_eq_some_iff.mp h
      cases hresult
      rw [token_extend hcomma]
      exact Option.map_eq_some_iff.mpr ⟨_, hread hr more, rfl⟩
  | none =>
      rw [hcomma] at h
      obtain ⟨tail, hclose, hresult⟩ := Option.map_eq_some_iff.mp h
      cases hresult
      rw [token_extend_none hne hcomma]
      exact Option.map_eq_some_iff.mpr ⟨_, token_extend hclose more, rfl⟩

theorem body_extend (hread : Stable read) {make : List α → Value} {item : Value}
    (hne : ∀ {r}, read text = some r → skipSpace text ≠ [])
    (h : body close read make text = some (item, rest)) (more : Bytes) :
    body close read make (text ++ more) = some (item, rest ++ more) := by
  unfold body at h ⊢
  cases hclosed : token close text with
  | some tail =>
      rw [hclosed] at h
      rw [token_extend hclosed]
      cases h
      rfl
  | none =>
      rw [hclosed] at h
      obtain ⟨r, hr, hresult⟩ := Option.map_eq_some_iff.mp h
      cases hresult
      rw [token_extend_none (hne hr) hclosed]
      exact Option.map_eq_some_iff.mpr ⟨_, hread hr more, rfl⟩

end Lists

/-- With this many steps, reading goes on in the same way if more text follows. -/
structure Extends (fuel : Nat) : Prop where
  value : ∀ {text rest item}, Json.value fuel text = some (item, rest) → Ends item rest →
    ∀ more, Json.value fuel (text ++ more) = some (item, rest ++ more)
  elements : Stable (Json.elements fuel)
  members : Stable (Json.members fuel)

section Steps

variable {fuel : Nat} {text rest : Bytes}

/-- What follows an item goes on with a comma or ends with the bracket. -/
theorem ends_of_follow {item : Value} (h : skipSpace rest ≠ []) : Ends item rest := by
  intro hnil
  rw [hnil] at h
  exact absurd rfl h

theorem members_ne_nil {r : List (Bytes × Value) × Bytes} (hread : members fuel text = some r) :
    skipSpace text ≠ [] := by
  cases fuel with
  | zero => cases hread
  | succ fuel =>
      simp only [members, Option.bind_eq_bind, Option.bind_eq_some_iff] at hread
      obtain ⟨_, ⟨_, hopen, _⟩, _⟩ := hread
      exact skipSpace_ne_nil hopen

theorem elements_ne_nil {r : List Value × Bytes} (hread : elements fuel text = some r) :
    skipSpace text ≠ [] := by
  intro hnil
  have hblank : Blank text := List.dropWhile_eq_nil_iff.mp hnil
  cases fuel with
  | zero => cases hread
  | succ fuel =>
      rw [elements, value_blank hblank] at hread
      cases hread

theorem members_extend (h : Extends fuel) {fields : List (Bytes × Value)}
    (hread : members (fuel + 1) text = some (fields, rest)) (more : Bytes) :
    members (fuel + 1) (text ++ more) = some (fields, rest ++ more) := by
  simp only [members, Option.bind_eq_bind, Option.bind_eq_some_iff, Prod.exists] at hread ⊢
  obtain ⟨key, behind, ⟨opened, hopen, hkey⟩, item, after, ⟨colon, hcolon, hitem⟩, hfollow⟩ := hread
  have hfollow : follow 125 (members fuel) (key, item) after = some (fields, rest) := hfollow
  have hvalue := h.value hitem (ends_of_follow (follow_ne_nil hfollow)) more
  exact ⟨key, behind ++ more, ⟨opened ++ more, token_extend hopen more,
    stringBody_extend hkey more⟩, item, after ++ more, ⟨colon ++ more, token_extend hcolon more,
    hvalue⟩, follow_extend h.members hfollow more⟩

theorem elements_extend (h : Extends fuel) {items : List Value}
    (hread : elements (fuel + 1) text = some (items, rest)) (more : Bytes) :
    elements (fuel + 1) (text ++ more) = some (items, rest ++ more) := by
  simp only [elements, Option.bind_eq_bind, Option.bind_eq_some_iff, Prod.exists] at hread ⊢
  obtain ⟨item, after, hitem, hfollow⟩ := hread
  have hfollow : follow 93 (elements fuel) item after = some (items, rest) := hfollow
  have hvalue := h.value hitem (ends_of_follow (follow_ne_nil hfollow)) more
  exact ⟨item, after ++ more, hvalue, follow_extend h.elements hfollow more⟩

theorem value_extend (h : Extends fuel) {item : Value}
    (hread : value (fuel + 1) text = some (item, rest)) (hends : Ends item rest) (more : Bytes) :
    value (fuel + 1) (text ++ more) = some (item, rest ++ more) := by
  have hne : skipSpace text ≠ [] := by
    intro hnil
    have hblank : Blank text := List.dropWhile_eq_nil_iff.mp hnil
    rw [value_blank hblank] at hread
    cases hread
  rw [value] at hread ⊢
  cases hbrace : token 123 text with
  | some inside =>
      rw [hbrace] at hread
      rw [token_extend hbrace]
      have hbody : body 125 (members fuel) .object inside = some (item, rest) := hread
      exact body_extend h.members members_ne_nil hbody more
  | none =>
      rw [hbrace] at hread
      rw [token_extend_none hne hbrace]
      cases hbracket : token 91 text with
      | some inside =>
          rw [hbracket] at hread
          rw [token_extend hbracket]
          have hbody : body 93 (elements fuel) .array inside = some (item, rest) := hread
          exact body_extend h.elements elements_ne_nil hbody more
      | none =>
          rw [hbracket] at hread
          rw [token_extend_none hne hbracket]
          cases hquote : token 34 text with
          | some shown =>
              rw [hquote] at hread
              rw [token_extend hquote]
              obtain ⟨r, hr, hresult⟩ := Option.map_eq_some_iff.mp hread
              cases hresult
              exact Option.map_eq_some_iff.mpr ⟨_, stringBody_extend hr more, rfl⟩
          | none =>
              rw [hquote] at hread
              rw [token_extend_none hne hquote]
              exact literal_extend hread hends more

end Steps

theorem reading_extends (fuel : Nat) : Extends fuel := by
  induction fuel with
  | zero =>
      constructor
      · intro _ _ _ hread
        cases hread
      · intro _ _ _ hread
        cases hread
      · intro _ _ _ hread
        cases hread
  | succ fuel ih => exact ⟨value_extend ih, elements_extend ih, members_extend ih⟩

/-- A whole text that is an object is read in the same way in front of any other text. -/
theorem document_extend {text : Bytes} {fields : List (Bytes × Value)}
    (h : document text = some (.object fields)) (more : Bytes) :
    ∃ rest, value (2 * text.length + 2) (text ++ more) = some (.object fields, rest ++ more) := by
  unfold document at h
  split at h
  · next item rest hread =>
      split at h
      · cases h
        have hends : Ends (.object fields) rest := by
          intro _ _ hnumber
          cases hnumber
        exact ⟨rest, (reading_extends _).value hread hends more⟩
      · cases h
  · cases h

/-! ## Members -/

section Members

variable {fuel : Nat} {blank key text rest : Bytes} {fields : List (Bytes × Value)}

theorem value_object (hread : value fuel (123 :: member blank key text) =
    some (.object fields, rest)) (hblank : Blank blank) :
    ∃ fuel', members fuel' (member blank key text) = some (fields, rest) := by
  have hbrace : isSpace 123 = false := rfl
  have hquote : isSpace 34 = false := rfl
  cases fuel with
  | zero => cases hread
  | succ fuel =>
      have hnonempty : token 125 (member blank key text) = none := by
        rw [member, List.append_assoc, token_append hblank, List.cons_append, token_cons hquote,
          if_neg (by decide)]
      simp only [value, token_cons hbrace, if_true, hnonempty, Option.map_eq_some_iff] at hread
      obtain ⟨r, hr, hresult⟩ := hread
      cases hresult
      exact ⟨fuel, hr⟩

/-- What is read behind an item that is known. -/
theorem members_item {item : Value} {more : Bytes} (hread : members fuel
    (member blank key (text ++ 44 :: more)) = some (fields, rest)) (hblank : Blank blank)
    (hkey : Unescaped key) (h : Reads 1 text item) :
    ∃ fuel' tail, members fuel' more = some (tail, rest) ∧ fields = (key, item) :: tail := by
  have hcomma : isSpace 44 = false := rfl
  rcases fuel with _ | _ | fuel
  · cases hread
  · rw [members_member hblank hkey] at hread
    cases hread
  · rw [members_member hblank hkey,
      h (fuel + 1) (by omega) (44 :: more) (by simp [isNumberChar, isDigit])] at hread
    simp only [Option.bind_some, token_cons hcomma, if_true, Option.map_eq_some_iff] at hread
    obtain ⟨r, hr, hresult⟩ := hread
    cases hresult
    exact ⟨fuel + 1, r.1, hr, rfl⟩

theorem members_string {body : Bytes} (hread : members fuel (member blank key (34 :: body)) =
    some (fields, rest)) (hblank : Blank blank) (hkey : Unescaped key) :
    ∃ shown behind tail, stringBody 0 body = some (shown, behind) ∧
      fields = (key, .string shown) :: tail := by
  have hquote : isSpace 34 = false := rfl
  rcases fuel with _ | _ | fuel
  · cases hread
  · rw [members_member hblank hkey] at hread
    cases hread
  · have hvalue : value (fuel + 1) (34 :: body) =
        (stringBody 0 body).map fun r => (.string r.1, r.2) := by
      simp only [value, token_cons hquote]
      rfl
    rw [members_member hblank hkey, hvalue] at hread
    obtain ⟨r, hr, hfollow⟩ := Option.bind_eq_some_iff.mp hread
    obtain ⟨s, hs, hresult⟩ := Option.map_eq_some_iff.mp hr
    cases hresult
    dsimp only at hfollow
    split at hfollow
    · obtain ⟨q, _, hresult⟩ := Option.map_eq_some_iff.mp hfollow
      cases hresult
      exact ⟨s.1, s.2, q.1, hs, rfl⟩
    · obtain ⟨q, _, hresult⟩ := Option.map_eq_some_iff.mp hfollow
      cases hresult
      exact ⟨s.1, s.2, [], hs, rfl⟩

end Members

end Json
