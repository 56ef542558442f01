import MeasuredBoot.SrtmLog.Written

/-! # The description of an `EV_IPL` event

`event_ipl` prints the data line by line through `char s[4096]`, after a loop over tabs
that stops at a NUL and not at the size of the event. Between the two the text is the
data without its line ends only where the lines are short and the tabs come early.
-/

namespace MeasuredBoot.SrtmLog

open Binary Imperative Imperative.Proc

/-! ## The text asked for -/

/-- The lines of a description end at a newline or a NUL. -/
def isLineEnd (b : UInt8) : Bool := b = 10 || b = 0

def spaceForTab (b : UInt8) : UInt8 := if b = 9 then 32 else b

/-- The data without its line ends, and with spaces for tabs. -/
def renderIpl (data : Bytes) : Bytes := (data.filter fun b => !isLineEnd b).map spaceForTab

def iplClosing (format : Format) : Bytes :=
  if format = .json then ascii "\"\n\x7d,\n" else []

/-! ## Tabs -/

theorem isLineEnd_spaceForTab (b : UInt8) : isLineEnd (spaceForTab b) = isLineEnd b := by
  unfold spaceForTab
  split
  · next h => subst h; rfl
  · rfl

theorem spacesForTabs_eq (mem : Bytes) :
    spacesForTabs mem = (cString mem).map spaceForTab ++ mem.dropWhile (· ≠ 0) := by
  induction mem with
  | nil => rfl
  | cons d rest ih =>
      by_cases hd : d = 0
      · simp [spacesForTabs, cString, hd]
      · rw [spacesForTabs, if_neg hd, ih]
        simp [cString, hd, spaceForTab]

/-- Only tabs change, so the lines stay where they are. -/
theorem spacesForTabs_lineEnds (mem : Bytes) :
    (spacesForTabs mem).map isLineEnd = mem.map isLineEnd := by
  induction mem with
  | nil => rfl
  | cons d rest ih =>
      by_cases hd : d = 0
      · simp [spacesForTabs, hd]
      · rw [spacesForTabs, if_neg hd, List.map_cons, ih, List.map_cons]
        exact congrArg (· :: _) (isLineEnd_spaceForTab d)

theorem spacesForTabs_take (mem : Bytes) (size : Nat) :
    (spacesForTabs mem).take size = spacesForTabs (mem.take size) := by
  induction mem generalizing size with
  | nil => simp [spacesForTabs]
  | cons d rest ih =>
      cases size with
      | zero => rfl
      | succ size =>
          by_cases hd : d = 0
          · simp [spacesForTabs, hd]
          · simp [spacesForTabs, hd, ih]

theorem map_spaceForTab_eq {text : Bytes} : text.map spaceForTab = text ↔ 9 ∉ text := by
  induction text with
  | nil => simp
  | cons b text ih =>
      have hb : spaceForTab b = b ↔ 9 ≠ b := by
        unfold spaceForTab
        split
        · next h => subst h; decide
        · next h => exact iff_of_true rfl (Ne.symm h)
      rw [List.map_cons, List.cons.injEq, ih, hb, List.mem_cons, not_or]

/-- Every tab that is printed is replaced where none comes behind a NUL. -/
theorem filter_spacesForTabs (data : Bytes) :
    (spacesForTabs data).filter (fun b => !isLineEnd b) = renderIpl data ↔
      9 ∉ data.dropWhile (· ≠ 0) := by
  have hsplit : renderIpl data =
      renderIpl (cString data) ++ renderIpl (data.dropWhile (· ≠ 0)) := by
    unfold renderIpl cString
    rw [← List.map_append, ← List.filter_append, List.takeWhile_append_dropWhile]
  have hfront : ((cString data).map spaceForTab).filter (fun b => !isLineEnd b)
      = renderIpl (cString data) := by
    rw [List.filter_map]
    unfold renderIpl
    congr 2
    funext b
    exact congrArg (!·) (isLineEnd_spaceForTab b)
  have htab : isLineEnd 9 = false := rfl
  rw [spacesForTabs_eq, List.filter_append, hfront, hsplit, List.append_cancel_left_eq, eq_comm,
    renderIpl, map_spaceForTab_eq, List.mem_filter, htab]
  simp

/-! ## Lines -/

/-- Every 4096 bytes in a row hold a line end. -/
def LinesFit (data : Bytes) : Prop :=
  ∀ off, off + 4096 ≤ data.length → true ∈ slice (data.map isLineEnd) off 4096

/-- A line of the `size` bytes that are printed from. -/
structure IsLine (size : Nat) (line : Nat × Bytes) : Prop where
  le_size : line.1 ≤ size
  le_memory : line.1 ≤ line.2.length
  ends : ∀ b ∈ line.2.take line.1, isLineEnd b = false

/-- A text is one line, or a line with its end and a text behind it. -/
theorem lines_induction {motive : Bytes → Prop}
    (last : ∀ line, (∀ b ∈ line, isLineEnd b = false) → motive line)
    (next : ∀ line d rest, (∀ b ∈ line, isLineEnd b = false) → isLineEnd d = true → motive rest →
      motive (line ++ d :: rest))
    (data : Bytes) : motive data := by
  suffices h : ∀ line, (∀ b ∈ line, isLineEnd b = false) → motive (line ++ data) from
    h [] (by simp)
  induction data with
  | nil =>
      intro line hline
      rw [List.append_nil]
      exact last line hline
  | cons d rest ih =>
      intro line hline
      cases hd : isLineEnd d with
      | true => exact next line d rest hline hd (ih [] (by simp))
      | false =>
          have hlonger : ∀ b ∈ line ++ [d], isLineEnd b = false := by
            intro b hb
            rcases List.mem_append.mp hb with hb | hb
            · exact hline b hb
            · rw [List.mem_singleton] at hb
              exact hb ▸ hd
          have hmotive := ih (line ++ [d]) hlonger
          rwa [List.append_assoc, List.singleton_append] at hmotive

theorem takeWhile_line {line : Bytes} (h : ∀ b ∈ line, isLineEnd b = false) (rest : Bytes)
    (hrest : ∀ d ∈ rest.head?, isLineEnd d = true) :
    (line ++ rest).takeWhile (fun b => b ≠ 10 ∧ b ≠ 0) = line := by
  have hkept : ∀ b, decide (b ≠ 10 ∧ b ≠ 0) = !isLineEnd b := by
    intro b
    simp [isLineEnd]
  have hline : ∀ b ∈ line, decide (b ≠ 10 ∧ b ≠ 0) = true := by
    intro b hb
    rw [hkept, h b hb]
    rfl
  rw [List.takeWhile_append_of_pos hline]
  cases rest with
  | nil => rw [List.takeWhile_nil, List.append_nil]
  | cons d rest =>
      have hd := hkept d
      rw [hrest d rfl] at hd
      rw [List.takeWhile_cons_of_neg (by simpa using hd), List.append_nil]

section Lines

variable {line rest : Bytes} {d : UInt8}

theorem iplLines_last (h : ∀ b ∈ line, isLineEnd b = false) {fuel : Nat}
    (hfuel : line.length ≤ fuel) (behind : Bytes) :
    iplLines fuel line.length (line ++ behind) =
      if line = [] then [] else [(line.length, line ++ behind)] := by
  have htake : (line ++ behind).take line.length = line := List.take_left' rfl
  have hline := takeWhile_line h [] (by simp)
  rw [List.append_nil] at hline
  cases fuel with
  | zero =>
      have hnil := List.eq_nil_of_length_eq_zero (Nat.le_zero.mp hfuel)
      rw [if_pos hnil]
      rfl
  | succ fuel =>
      unfold iplLines
      by_cases hnil : line = []
      · rw [if_pos hnil, if_pos (by rw [hnil]; rfl)]
      · have hpos : line.length ≠ 0 := fun h0 => hnil (List.eq_nil_of_length_eq_zero h0)
        have hsub : line.length - (line.length + 1) = 0 := by omega
        rw [if_neg hnil, if_neg hpos, htake, hline]
        dsimp only
        rw [hsub]
        cases fuel <;> rfl

theorem iplLines_next (h : ∀ b ∈ line, isLineEnd b = false) (hd : isLineEnd d = true)
    (fuel : Nat) (behind : Bytes) :
    iplLines (fuel + 1) (line ++ d :: rest).length (line ++ d :: rest ++ behind) =
      (line.length, line ++ d :: rest ++ behind) :: iplLines fuel rest.length (rest ++ behind) := by
  have htake : (line ++ d :: rest ++ behind).take (line ++ d :: rest).length = line ++ d :: rest :=
    List.take_left' rfl
  have hline := takeWhile_line h (d :: rest) (by simpa using hd)
  have hpos : (line ++ d :: rest).length ≠ 0 := by simp
  have hsub : (line ++ d :: rest).length - (line.length + 1) = rest.length := by
    rw [List.length_append, List.length_cons]
    omega
  have hdrop : (line ++ d :: rest ++ behind).drop (line.length + 1) = rest ++ behind := by
    have hassoc : line ++ d :: rest ++ behind = (line ++ [d]) ++ (rest ++ behind) := by simp
    rw [hassoc]
    exact List.drop_left' (by simp)
  rw [iplLines, if_neg hpos, htake, hline]
  dsimp only
  rw [hsub, hdrop]

theorem linesFit_last (h : ∀ b ∈ line, isLineEnd b = false) :
    LinesFit line ↔ line.length ≤ 4095 := by
  constructor
  · intro hfit
    by_contra hlong
    have hmem := List.mem_of_mem_drop (List.mem_of_mem_take (hfit 0 (by omega)))
    obtain ⟨b, hb, hend⟩ := List.mem_map.mp hmem
    rw [h b hb] at hend
    cases hend
  · intro hshort off hoff
    omega

theorem linesFit_next (h : ∀ b ∈ line, isLineEnd b = false) (hd : isLineEnd d = true) :
    LinesFit (line ++ d :: rest) ↔ line.length ≤ 4095 ∧ LinesFit rest := by
  have hmap : (line ++ d :: rest).map isLineEnd
      = (line ++ [d]).map isLineEnd ++ rest.map isLineEnd := by simp
  have hfirst : ((line ++ [d]).map isLineEnd).length = line.length + 1 := by simp
  have hlen : (line ++ d :: rest).length = line.length + 1 + rest.length := by
    rw [List.length_append, List.length_cons]
    omega
  constructor
  · intro hfit
    constructor
    · by_contra hlong
      have hmem := hfit 0 (by omega)
      have hstart : slice ((line ++ d :: rest).map isLineEnd) 0 4096
          = (line.map isLineEnd).take 4096 := by
        rw [slice, List.drop_zero, List.map_append,
          List.take_append_of_le_length (by rw [List.length_map]; omega)]
      rw [hstart] at hmem
      obtain ⟨b, hb, hend⟩ := List.mem_map.mp (List.mem_of_mem_take hmem)
      rw [h b hb] at hend
      cases hend
    · intro off hoff
      have hmem := hfit (line.length + 1 + off) (by omega)
      rwa [hmap, ← hfirst, slice_append_right] at hmem
  · rintro ⟨hshort, hfit⟩ off hoff
    by_cases hin : off ≤ line.length
    · have hat : ((line ++ d :: rest).map isLineEnd)[line.length]? = some true := by
        rw [List.getElem?_map, List.getElem?_append_right (Nat.le_refl _), Nat.sub_self]
        exact congrArg some hd
      apply List.mem_of_getElem? (i := line.length - off)
      rw [slice, List.getElem?_take_of_lt (by omega), List.getElem?_drop,
        Nat.add_sub_cancel' hin]
      exact hat
    · have hmem := hfit (off - (line.length + 1)) (by omega)
      have hoff' : off = line.length + 1 + (off - (line.length + 1)) := by omega
      rw [hmap, hoff', ← hfirst, slice_append_right, hfirst]
      exact hmem

end Lines

/-- What `printIpl` loops over: the lines of the data, which together are the data without
line ends, and which the formatting buffer holds exactly where the data is in short lines. -/
structure LinesOf (data : Bytes) (lines : List (Nat × Bytes)) : Prop where
  isLine : ∀ line ∈ lines, IsLine data.length line
  text : lines.flatMap (fun line => line.2.take line.1) = data.filter fun b => !isLineEnd b
  fit : (∀ line ∈ lines, line.1 ≤ 4095) ↔ LinesFit data

theorem filter_line {line : Bytes} (h : ∀ b ∈ line, isLineEnd b = false) :
    line.filter (fun b => !isLineEnd b) = line := by
  rw [List.filter_eq_self]
  intro b hb
  rw [h b hb]
  rfl

theorem iplLines_spec (data behind : Bytes) {fuel : Nat} (hfuel : data.length ≤ fuel) :
    LinesOf data (iplLines fuel data.length (data ++ behind)) := by
  induction data using lines_induction generalizing fuel with
  | last line hline =>
      have htext := filter_line hline
      have hself : (line ++ behind).take line.length = line := List.take_left' rfl
      rw [iplLines_last hline hfuel]
      split
      · next hnil =>
        subst hnil
        refine ⟨by simp, by simp, ?_⟩
        rw [linesFit_last hline]
        simp
      · next hnil =>
        refine ⟨?_, ?_, ?_⟩
        · intro l hl
          rw [List.mem_singleton] at hl
          subst hl
          refine ⟨Nat.le_refl _, by simp, ?_⟩
          rw [hself]
          exact hline
        · rw [htext, List.flatMap_singleton]
          exact hself
        · rw [linesFit_last hline]
          simp
  | next line d rest hline hd ih =>
      have hlen : (line ++ d :: rest).length = line.length + 1 + rest.length := by
        rw [List.length_append, List.length_cons]
        omega
      have hself : (line ++ d :: rest ++ behind).take line.length = line := by
        rw [List.append_assoc]
        exact List.take_left' rfl
      have htext := filter_line hline
      obtain ⟨fuel, rfl⟩ : ∃ less, fuel = less + 1 := ⟨fuel - 1, by omega⟩
      have hrest := @ih fuel (by omega)
      rw [iplLines_next hline hd]
      refine ⟨?_, ?_, ?_⟩
      · intro l hl
        rcases List.mem_cons.mp hl with rfl | hl
        · refine ⟨by omega, ?_, ?_⟩
          · rw [List.length_append]
            omega
          · rw [hself]
            exact hline
        · have hline' := hrest.isLine l hl
          exact ⟨hline'.le_size.trans (by omega), hline'.le_memory, hline'.ends⟩
      · rw [List.flatMap_cons, hself, hrest.text, List.filter_append, htext,
          List.filter_cons_of_neg (by simp [hd])]
      · rw [List.forall_mem_cons, hrest.fit, linesFit_next hline hd]

/-! ## Printing a line -/

/-- The text formatted for a line is the line, unless its length is not an `int`. -/
theorem precisionText_line {size : Nat} {line : Nat × Bytes} (h : IsLine size line)
    (hsize : line.1 < 2 ^ 31) : precisionText line.1 line.2 = .ok (line.2.take line.1) := by
  have hnul : (0 : UInt8) ∉ line.2.take line.1 := by
    intro h0
    have hend := h.ends 0 h0
    cases hend
  have hstring := cString_append hnul []
  have hmod : line.1 % 2 ^ 32 = line.1 := Nat.mod_eq_of_lt (by omega)
  have hempty : cString [] = [] := rfl
  rw [List.append_nil, hempty, List.append_nil] at hstring
  rw [precisionText, hmod, if_pos hsize, hstring]

theorem cut_line_length {size : Nat} {line : Nat × Bytes} (h : IsLine size line)
    (hlong : ¬line.1 ≤ 4095) (text : Bytes) :
    (cut text).length < (line.2.take line.1).length := by
  have hmem := h.le_memory
  rw [cut, List.length_take, List.length_take]
  omega

/-- The state after a text is added lets the next one be added. -/
theorem addEvlog_next {s : CbData} (hpcr : s.activePcr < maxPcrs) {text : Bytes}
    (hlen : text.length < 2 ^ 31) :
    ∃ t, addEvlog (.ok text) s = .next () t ∧ t.activePcr = s.activePcr := by
  have hprinted : snprintf text = .ok (text.take 4095) := if_pos hlen
  unfold addEvlog
  rw [bind_apply, getState_apply, andThen_next]
  unfold Proc.when
  split
  · refine ⟨appendText (text.take 4095) s, ?_, rfl⟩
    rw [lift_ok_bind, hprinted, lift_ok_bind, appendActive, bind_apply, getState_apply,
      andThen_next, Proc.when, if_neg (by omega)]
    rfl
  · exact ⟨s, rfl, rfl⟩

theorem printLines_next (size : Nat) (lines : List (Nat × Bytes))
    (hlines : ∀ line ∈ lines, IsLine size line ∧ line.1 ≤ 4095) (s : CbData)
    (hpcr : s.activePcr < maxPcrs) :
    ∃ t, forEach (fun line => addEvlog (precisionText line.1 line.2)) lines s = .next () t ∧
      t.activePcr = s.activePcr := by
  induction lines generalizing s with
  | nil => exact ⟨s, rfl, rfl⟩
  | cons line lines ih =>
      obtain ⟨hline, hshort⟩ := hlines line List.mem_cons_self
      have hlen : (line.2.take line.1).length < 2 ^ 31 := by
        rw [List.length_take]
        omega
      obtain ⟨t, ht, hactive⟩ := addEvlog_next hpcr hlen
      obtain ⟨u, hu, hactive'⟩ :=
        ih (fun l hl => hlines l (List.mem_cons_of_mem line hl)) t (hactive ▸ hpcr)
      refine ⟨u, ?_, hactive'.trans hactive⟩
      have hround : addEvlog (precisionText line.1 line.2) s = .next () t := by
        rw [precisionText_line hline (by omega)]
        exact ht
      show Outcome.andThen (addEvlog (precisionText line.1 line.2) s) _ = _
      rw [hround]
      exact hu

/-- What the formatting buffer keeps of a line. -/
def printedLine (line : Nat × Bytes) : Bytes := cut (formatted (precisionText line.1 line.2))

theorem printedLine_of_short {size : Nat} {line : Nat × Bytes} (h : IsLine size line)
    (hshort : line.1 ≤ 4095) : printedLine line = line.2.take line.1 := by
  unfold printedLine
  rw [precisionText_line h (by omega), formatted, cut, List.take_of_length_le]
  rw [List.length_take]
  omega

theorem printedLine_length_le {size : Nat} {line : Nat × Bytes} (h : IsLine size line) :
    (printedLine line).length ≤ (line.2.take line.1).length := by
  by_cases hshort : line.1 ≤ 4095
  · rw [printedLine_of_short h hshort]
  · exact (cut_line_length h hshort _).le

section Printed

variable {size : Nat} {lines : List (Nat × Bytes)}

theorem printed_of_short (h : ∀ line ∈ lines, IsLine size line)
    (hshort : ∀ line ∈ lines, line.1 ≤ 4095) :
    lines.flatMap printedLine = lines.flatMap fun line => line.2.take line.1 :=
  List.flatMap_congr fun line hline => printedLine_of_short (h line hline) (hshort line hline)

theorem printed_length_le (h : ∀ line ∈ lines, IsLine size line) :
    (lines.flatMap printedLine).length
      ≤ (lines.flatMap fun line => line.2.take line.1).length := by
  induction lines with
  | nil => exact Nat.le_refl _
  | cons line lines ih =>
      have hline := printedLine_length_le (h line List.mem_cons_self)
      have hrest := ih fun l hl => h l (List.mem_cons_of_mem line hl)
      simp only [List.flatMap_cons, List.length_append]
      omega

/-- A line of more than 4095 bytes loses some. -/
theorem short_of_printed_length (h : ∀ line ∈ lines, IsLine size line)
    (hlen : (lines.flatMap printedLine).length
      = (lines.flatMap fun line => line.2.take line.1).length) :
    ∀ line ∈ lines, line.1 ≤ 4095 := by
  induction lines with
  | nil => simp
  | cons line lines ih =>
      have hline := h line List.mem_cons_self
      have hlines := fun l hl => h l (List.mem_cons_of_mem line hl)
      have hle := printedLine_length_le hline
      have hrest := printed_length_le hlines
      simp only [List.flatMap_cons, List.length_append] at hlen
      rw [List.forall_mem_cons]
      constructor
      · by_contra hlong
        have hlt : (printedLine line).length < (line.2.take line.1).length :=
          cut_line_length hline hlong _
        omega
      · exact ih hlines (by omega)

end Printed

/-! ## The description -/

/-- The data is followed by a NUL, its lines are shorter than the formatting buffer and no
tab is behind its first NUL. -/
structure PlainIpl (data behind : Bytes) : Prop where
  terminated : 0 ∈ data ++ behind
  lines : LinesFit data
  tabs : 9 ∉ data.dropWhile (· ≠ 0)

/-- What is printed from the data: its lines after the loop over tabs. -/
theorem iplLines_spacesForTabs (data behind : Bytes) :
    LinesOf (spacesForTabs data)
      (iplLines data.length data.length (spacesForTabs (data ++ behind))) := by
  have hlen := spacesForTabs_length data
  have htake : (spacesForTabs (data ++ behind)).take data.length = spacesForTabs data := by
    rw [spacesForTabs_take, List.take_left' rfl]
  have hsplit := List.take_append_drop data.length (spacesForTabs (data ++ behind))
  rw [htake] at hsplit
  have hspec := iplLines_spec (spacesForTabs data)
    ((spacesForTabs (data ++ behind)).drop data.length) (Nat.le_refl _)
  rwa [hsplit, hlen] at hspec

theorem renderIpl_length (data : Bytes) :
    (renderIpl data).length = ((spacesForTabs data).filter fun b => !isLineEnd b).length := by
  have hcount : ∀ text : Bytes, (text.filter fun b => !isLineEnd b).length
      = (text.map isLineEnd).countP (!·) := by
    intro text
    rw [List.countP_map, List.countP_eq_length_filter]
    rfl
  rw [renderIpl, List.length_map, hcount, hcount, spacesForTabs_lineEnds]

/-- The lines are printed as the description exactly where they are short and every tab
among them is replaced. -/
theorem printed_eq_render {data : Bytes} {lines : List (Nat × Bytes)}
    (h : LinesOf (spacesForTabs data) lines) :
    lines.flatMap printedLine = renderIpl data ↔
      LinesFit data ∧ 9 ∉ data.dropWhile (· ≠ 0) := by
  have hfit : LinesFit (spacesForTabs data) ↔ LinesFit data := by
    unfold LinesFit
    rw [spacesForTabs_lineEnds, spacesForTabs_length]
  constructor
  · intro hprinted
    have hshort : ∀ line ∈ lines, line.1 ≤ 4095 := by
      apply short_of_printed_length h.isLine
      rw [hprinted, h.text, renderIpl_length]
    refine ⟨hfit.mp (h.fit.mp hshort), ?_⟩
    rwa [printed_of_short h.isLine hshort, h.text, filter_spacesForTabs] at hprinted
  · rintro ⟨hlines, htabs⟩
    rw [printed_of_short h.isLine (h.fit.mpr (hfit.mpr hlines)), h.text, filter_spacesForTabs]
    exact htabs

theorem cut_iplOpening (format : Format) : cut (iplOpening format) = iplOpening format := by
  cases format <;> decide

theorem iplClosing_texts (format : Format) :
    (if format = .json then [ascii "\"\n\x7d,\n"] else []).flatMap cut = iplClosing format := by
  cases format <;> decide

/-- A run of `event_ipl` that returns has printed the lines between the opening and the
closing text. -/
theorem eventIpl_printed {data behind : Bytes} {s t : CbData} {left : Bool × Bytes}
    (hrun : eventIpl data.length (data ++ behind) s = .next left t)
    (hasked : s.activePcr ∈ s.pcrNums) :
    bufferText s.activePcr t = bufferText s.activePcr s ++ (iplOpening s.format ++
      (iplLines data.length data.length (spacesForTabs (data ++ behind))).flatMap printedLine ++
        iplClosing s.format) := by
  have hwrote := (next_of_wlp (eventIpl_wrote data.length (data ++ behind) s) hrun).wrote
  rw [hwrote.buffer, if_pos ⟨rfl, hasked⟩, List.flatMap_append, List.flatMap_cons,
    cut_iplOpening, iplClosing_texts, List.flatMap_map]
  rfl

theorem eventIpl_next {data behind : Bytes} (hnul : 0 ∈ data ++ behind) (hfit : LinesFit data)
    {s : CbData} (hpcr : s.activePcr < maxPcrs) :
    ∃ t, eventIpl data.length (data ++ behind) s
      = .next (true, spacesForTabs (data ++ behind)) t := by
  have hlines := iplLines_spacesForTabs data behind
  have hshort := hlines.fit.mpr (by
    unfold LinesFit
    rw [spacesForTabs_lineEnds, spacesForTabs_length]
    exact hfit)
  have hopening : (iplOpening s.format).length < 2 ^ 31 := by cases s.format <;> decide
  obtain ⟨t, ht, hactive⟩ := addEvlog_next hpcr hopening
  obtain ⟨u, hu, hactive'⟩ := printLines_next _ _
    (fun line hline => ⟨hlines.isLine line hline, hshort line hline⟩) t (hactive ▸ hpcr)
  have hpcr' : u.activePcr < maxPcrs := by rwa [hactive', hactive]
  obtain ⟨v, hv, -⟩ := @addEvlog_next u hpcr' (ascii "\"\n\x7d,\n") (by decide)
  have hprint : ∃ w, printIpl data.length (spacesForTabs (data ++ behind)) t = .next () w := by
    unfold printIpl
    rw [bind_apply, getState_apply, andThen_next, bind_apply, hu, andThen_next]
    unfold Proc.when
    split
    · exact ⟨v, hv⟩
    · exact ⟨u, rfl⟩
  obtain ⟨w, hw⟩ := hprint
  refine ⟨w, ?_⟩
  unfold eventIpl
  rw [replaceTabs_of_nul hnul, bind_apply, getState_apply, andThen_next, bind_apply, ht,
    andThen_next, lift_ok_bind, bind_apply, hw]
  rfl

/-- For a register that is asked for, `event_ipl` appends the description of the data. -/
def RendersIpl (data behind : Bytes) (s : CbData) : Prop :=
  s.activePcr ∈ s.pcrNums → s.activePcr < maxPcrs →
    ∃ left t, eventIpl data.length (data ++ behind) s = .next (true, left) t ∧
      bufferText s.activePcr t = bufferText s.activePcr s ++
        (iplOpening s.format ++ renderIpl data ++ iplClosing s.format)

theorem plainIpl_of_renders {data behind : Bytes} {s : CbData} (h : RendersIpl data behind s)
    (hasked : s.activePcr ∈ s.pcrNums) (hpcr : s.activePcr < maxPcrs) :
    PlainIpl data behind := by
  obtain ⟨left, t, hrun, htext⟩ := h hasked hpcr
  have hnul : 0 ∈ data ++ behind := by
    by_contra hnot
    obtain ⟨w, hw⟩ := eventIpl_of_not_nul hnot data.length s
    rw [hw] at hrun
    cases hrun
  rw [eventIpl_printed hrun hasked, List.append_cancel_left_eq, List.append_cancel_right_eq,
    List.append_cancel_left_eq] at htext
  obtain ⟨hfit, htabs⟩ := (printed_eq_render (iplLines_spacesForTabs data behind)).mp htext
  exact ⟨hnul, hfit, htabs⟩

theorem rendersIpl_iff (data behind : Bytes) (s : CbData) :
    RendersIpl data behind s ↔
      s.activePcr ∉ s.pcrNums ∨ maxPcrs ≤ s.activePcr ∨ PlainIpl data behind := by
  constructor
  · intro h
    by_cases hasked : s.activePcr ∈ s.pcrNums
    · by_cases hpcr : s.activePcr < maxPcrs
      · exact Or.inr (Or.inr (plainIpl_of_renders h hasked hpcr))
      · exact Or.inr (Or.inl (Nat.le_of_not_lt hpcr))
    · exact Or.inl hasked
  · rintro (hasked | hpcr | hplain) hin hlt
    · exact absurd hin hasked
    · omega
    · obtain ⟨t, hrun⟩ := eventIpl_next hplain.terminated hplain.lines hlt
      refine ⟨_, t, hrun, ?_⟩
      have hprinted := (printed_eq_render (iplLines_spacesForTabs data behind)).mpr
        ⟨hplain.lines, hplain.tabs⟩
      rw [eventIpl_printed hrun hin, hprinted]

/-- A NUL, a tab and a NUL: the tab is printed as it is. -/
def tabBehindNul : Bytes := [0, 9, 0]

theorem not_rendersIpl_tabBehindNul :
    ¬RendersIpl tabBehindNul [] { CbData.start .json [8] with activePcr := 8 } := by
  intro h
  have hplain := plainIpl_of_renders h List.mem_cons_self (by decide)
  exact absurd hplain.tabs (by decide)

end MeasuredBoot.SrtmLog
