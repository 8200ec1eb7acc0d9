import ScriptWorkbench.Proofs.Text.Nearest
import ScriptWorkbench.Text.WordScan

/-!
# What is missing of a position

A line of a text is said by what stands above it and below it, without cutting the text
(`Text.IsLine`).  Line feeds number the lines, so a text has a line of a number exactly if it has at
least one line feed less (`Text.exists_isLine_iff`), and then one only (`Text.IsLine.unique`).  What
`Text.offsetOf` answers is said in these words, for all positions and in all cases
(`Text.offsetOf_exact`).

The numbers on the way are bounded by the size of the text and one more (`WordScan.offsetOf?_eq`).
-/

set_option autoImplicit false

namespace ScriptWorkbench

namespace Text

/-- `line` is the line of a number: what stands above it has one line feed less and ends with one,
and a line feed or nothing follows. -/
structure IsLine (t : Text) (number : Nat) (above line below : Text) : Prop where
  split : t = above ++ (line ++ below)
  number_eq : number = above.count '\n' + 1
  unbroken : '\n' ∉ line
  begins : above = [] ∨ above.getLast? = some '\n'
  ends : below = [] ∨ below.head? = some '\n'

namespace IsLine

variable {t above line below : Text} {number : Nat}

/-- Lines are numbered from one. -/
theorem pos (h : IsLine t number above line below) : 0 < number := by
  rw [h.number_eq]
  exact Nat.succ_pos _

/-- The first line of a text. -/
theorem first (hline : '\n' ∉ line) (hbelow : below = [] ∨ below.head? = some '\n') :
    IsLine (line ++ below) 1 [] line below :=
  ⟨rfl, rfl, hline, Or.inl rfl, hbelow⟩

/-- A line below the first one. -/
theorem down {l : Text} (hl : '\n' ∉ l) (h : IsLine t number above line below) :
    IsLine (l ++ '\n' :: t) (number + 1) (l ++ '\n' :: above) line below where
  split := by rw [h.split, List.append_assoc, List.cons_append]
  number_eq := by
    rw [h.number_eq, count_append_feed hl]
  unbroken := h.unbroken
  begins := by
    right
    rcases h.begins with rfl | hlast
    · simp
    · simp [List.getLast?_append, List.getLast?_cons, hlast]
  ends := h.ends

end IsLine

variable {t : Text}

/-- The first line goes up to the first line feed. -/
theorem head_lines {line below : Text} (hline : '\n' ∉ line)
    (hbelow : below = [] ∨ below.head? = some '\n') :
    (line ++ below).lines[0]? = some line := by
  rcases hbelow with rfl | hhead
  · rw [List.append_nil, lines_of_notMem hline]
    rfl
  · obtain ⟨rest, rfl⟩ := List.head?_eq_some_iff.1 hhead
    rw [lines_append hline]
    rfl

/-- A line stands among the lines of the text, and what is above it is as large as they say. -/
theorem IsLine.lines_eq {number : Nat} {above line below : Text}
    (h : IsLine t number above line below) :
    t.lines[number - 1]? = some line ∧ t.lineStart (number - 1) = above.byteSize := by
  obtain ⟨rfl, rfl, hline, habove, hbelow⟩ := h
  rw [Nat.add_sub_cancel]
  induction above using line_induction with
  | last l hl =>
    rcases habove with rfl | hlast
    · exact ⟨head_lines hline hbelow, rfl⟩
    · exact absurd (List.mem_of_getLast? hlast) hl
  | line l above hl ih =>
    have hrest : above = [] ∨ above.getLast? = some '\n' := by
      rcases above.eq_nil_or_concat with rfl | ⟨rest, c, rfl⟩
      · exact Or.inl rfl
      · right
        simpa [List.getLast?_append, List.getLast?_cons] using habove
    obtain ⟨hget, hstart⟩ := ih hrest
    rw [List.append_assoc, List.cons_append, count_append_feed hl, lineStart_append_feed hl, hstart,
      lines_append hl, List.getElem?_cons_succ, byteSize_append_feed]
    exact ⟨hget, rfl⟩

/-- Every one of the lines stands somewhere. -/
theorem exists_isLine {index : Nat} {line : Text} (h : t.lines[index]? = some line) :
    ∃ above below, IsLine t (index + 1) above line below := by
  induction t using line_induction generalizing index with
  | last l hl =>
    rw [lines_of_notMem hl] at h
    cases index with
    | zero =>
      cases h
      exact ⟨[], [], by simpa using IsLine.first hl (Or.inl rfl)⟩
    | succ index => cases h
  | line l t hl ih =>
    rw [lines_append hl] at h
    cases index with
    | zero =>
      cases h
      exact ⟨[], '\n' :: t, IsLine.first hl (Or.inr rfl)⟩
    | succ index =>
      obtain ⟨above, below, hbelow⟩ := ih h
      exact ⟨l ++ '\n' :: above, below, hbelow.down hl⟩

/-- The lines of a text are numbered from one to one more than it has line feeds. -/
theorem exists_isLine_iff (t : Text) (number : Nat) :
    (∃ above line below, IsLine t number above line below) ↔
      0 < number ∧ number ≤ t.count '\n' + 1 := by
  constructor
  · rintro ⟨above, line, below, h⟩
    refine ⟨h.pos, ?_⟩
    rw [h.number_eq, h.split, List.count_append]
    omega
  · rintro ⟨hpos, hle⟩
    have hlt : number - 1 < t.lines.length := by
      rw [length_lines, lineCount]
      omega
    obtain ⟨above, below, h⟩ := exists_isLine (List.getElem?_eq_getElem hlt)
    rw [Nat.sub_add_cancel hpos] at h
    exact ⟨above, _, below, h⟩

/-- There is one line of a number. -/
theorem IsLine.unique {number : Nat} {above line below above' line' below' : Text}
    (h : IsLine t number above line below) (h' : IsLine t number above' line' below') :
    above = above' ∧ line = line' ∧ below = below' := by
  obtain ⟨hline, hstart⟩ := h.lines_eq
  obtain ⟨hline', hstart'⟩ := h'.lines_eq
  obtain rfl : line = line' := Option.some.inj (hline.symm.trans hline')
  have habove : above = above' := by
    rw [← takeBytes_append_byteSize above (line ++ below), ← h.split, ← hstart, hstart', h'.split,
      takeBytes_append_byteSize]
  subst habove
  refine ⟨rfl, rfl, ?_⟩
  exact List.append_cancel_left (List.append_cancel_left (h.split.symm.trans h'.split))

/-! ## Every answer -/

/-- What a text has to answer when it is asked for a position. -/
inductive Answers (t : Text) (p : Position) : Except PositionError Nat → Prop
  | zero (h : p.line = 0 ∨ p.column = 0) : Answers t p (.error ⟨.zero, p⟩)
  | noLine (hcolumn : 0 < p.column) (h : t.count '\n' + 1 < p.line) :
    Answers t p (.error ⟨.noLine (t.count '\n' + 1), p⟩)
  | noColumn {above line below : Text} (hline : IsLine t p.line above line below)
    (h : line.length + 1 < p.column) : Answers t p (.error ⟨.noColumn line.length, p⟩)
  | found {above line below : Text} (hline : IsLine t p.line above line below)
    (hcolumn : 0 < p.column) (h : p.column ≤ line.length + 1) :
    Answers t p (.ok (above ++ line.take (p.column - 1)).byteSize)

variable {p : Position} {answer : Except PositionError Nat}

/-- What is said about a position and a text decides the answer. -/
theorem Answers.eq_offsetOf (h : Answers t p answer) : t.offsetOf p = answer := by
  cases h with
  | zero h => rw [offsetOf, if_pos h]
  | noLine hcolumn h =>
    have hlines : t.lines[p.line - 1]? = none := by
      rw [List.getElem?_eq_none_iff, length_lines, lineCount]
      omega
    rw [offsetOf, if_neg (by omega), hlines]
    rfl
  | noColumn hline h =>
    have hpos := hline.pos
    rw [offsetOf, if_neg (by omega), hline.lines_eq.1]
    exact if_neg (by omega)
  | found hline hcolumn h =>
    have hpos := hline.pos
    obtain ⟨hget, hstart⟩ := hline.lines_eq
    rw [offsetOf, if_neg (by omega), hget, hstart, byteSize_append]
    exact if_pos (by omega)

/-- There is an answer for every position. -/
theorem exists_answers (t : Text) (p : Position) : ∃ answer, Answers t p answer := by
  by_cases hzero : p.line = 0 ∨ p.column = 0
  · exact ⟨_, .zero hzero⟩
  · have hcolumn : 0 < p.column := by omega
    by_cases hbeyond : t.count '\n' + 1 < p.line
    · exact ⟨_, .noLine hcolumn hbeyond⟩
    · obtain ⟨above, line, below, hline⟩ :=
        (exists_isLine_iff t p.line).2 ⟨by omega, by omega⟩
      rcases Nat.lt_or_ge (line.length + 1) p.column with h | h
      · exact ⟨_, .noColumn hline h⟩
      · exact ⟨_, .found hline hcolumn h⟩

/-- Each answer is given exactly where it is right. -/
theorem offsetOf_eq_iff_answers : t.offsetOf p = answer ↔ Answers t p answer := by
  constructor
  · rintro rfl
    obtain ⟨answer, h⟩ := exists_answers t p
    rwa [h.eq_offsetOf]
  · exact Answers.eq_offsetOf

/-- The end of a line is the last position on it. -/
theorem IsLine.offsetOf_end {number : Nat} {above line below : Text}
    (h : IsLine t number above line below) :
    t.offsetOf ⟨number, line.length + 1⟩ = .ok (above ++ line).byteSize ∧
    t.offsetOf ⟨number, line.length + 2⟩ =
      .error ⟨.noColumn line.length, ⟨number, line.length + 2⟩⟩ := by
  constructor
  · have hfound : Answers t ⟨number, line.length + 1⟩ _ :=
      .found h (Nat.succ_pos _) (Nat.le_refl _)
    rw [hfound.eq_offsetOf]
    simp
  · exact (Answers.noColumn (p := ⟨number, line.length + 2⟩) h (Nat.lt_succ_self _)).eq_offsetOf

/-- The last line that there is has a beginning, and none is below it. -/
theorem offsetOf_last_line (t : Text) :
    (∃ n, t.offsetOf ⟨t.count '\n' + 1, 1⟩ = .ok n) ∧
    t.offsetOf ⟨t.count '\n' + 2, 1⟩ =
      .error ⟨.noLine (t.count '\n' + 1), ⟨t.count '\n' + 2, 1⟩⟩ := by
  constructor
  · obtain ⟨above, line, below, h⟩ :=
      (exists_isLine_iff t _).2 ⟨Nat.succ_pos _, Nat.le_refl (t.count '\n' + 1)⟩
    exact ⟨_, (Answers.found (p := ⟨t.count '\n' + 1, 1⟩) h Nat.one_pos
      (Nat.le_add_left 1 _)).eq_offsetOf⟩
  · exact (Answers.noLine (p := ⟨t.count '\n' + 2, 1⟩) Nat.one_pos
      (Nat.lt_succ_self _)).eq_offsetOf

end Text

namespace WordScan

/-! ## The same in machine words -/

open PlaceScan

variable {max : Nat}

/-- A sum that is a word is found. -/
theorem add?_of_le {a b : Nat} (h : a + b ≤ max) : add? max a b = some (a + b) := if_pos h

/-- A difference that is not below zero is found. -/
theorem sub?_of_le {a b : Nat} (h : b ≤ a) : sub? a b = some (a - b) := if_pos h

/-- Characters can be counted in words if all of the text can. -/
theorem count?_eq {q : Char → Bool} {n : Nat} {t : Text} (h : n + t.length ≤ max) :
    count? max q n t = some (n + t.countP q) := by
  induction t generalizing n with
  | nil => rfl
  | cons c t ih =>
    rw [List.length_cons] at h
    rw [count?]
    by_cases hc : q c = true
    · rw [if_pos hc, add?_of_le (by omega), List.countP_cons_of_pos hc]
      simp only [Option.bind_eq_bind, Option.bind_some]
      rw [ih (by omega)]
      congr 1
      omega
    · rw [if_neg hc, ih (by omega), List.countP_cons_of_neg hc]

/-- The line of an index is found in words if the size of the text is one. -/
theorem nthLine?_eq {start : Nat} {ls : List Text} (index : Nat)
    (h : start + ls.foldr (fun l n => l.byteSize + 1 + n) 0 ≤ max) :
    nthLine? max start ls index = some (numbered start ls)[index]? := by
  induction ls generalizing start index with
  | nil =>
    rw [nthLine?]
    rfl
  | cons l ls ih =>
    rw [List.foldr_cons] at h
    rw [nthLine?, add?_of_le (by omega)]
    simp only [Option.bind_eq_bind, Option.bind_some]
    rw [add?_of_le (by omega)]
    cases index with
    | zero => rfl
    | succ index => exact ih index (by omega)

/-- The character of an index is found in words if the size of the line is one. -/
theorem nthEdge?_eq {start : Nat} {l : Text} (index : Nat) (h : start + l.byteSize ≤ max) :
    nthEdge? max start l index = some (edges start l)[index]? := by
  induction l generalizing start index with
  | nil => cases index <;> rfl
  | cons c l ih =>
    rw [Text.byteSize_cons] at h
    rw [nthEdge?, add?_of_le (by omega)]
    cases index with
    | zero => rfl
    | succ index => exact ih index (by omega)

/-- All lines with their line feeds are one byte larger than the text. -/
theorem size_lines (t : Text) :
    t.lines.foldr (fun l n => l.byteSize + 1 + n) 0 = t.byteSize + 1 := by
  induction t using Text.line_induction with
  | last l hl => rw [Text.lines_of_notMem hl, List.foldr_cons, List.foldr_nil, Nat.add_zero]
  | line l t hl ih =>
    rw [Text.lines_append hl, List.foldr_cons, ih, Text.byteSize_append_feed, Nat.add_assoc _ _ 1]

/-- A numbered line lies in the text. -/
theorem size_of_numbered {t : Text} {index start : Nat} {l : Text}
    (h : (numbered 0 t.lines)[index]? = some (start, l)) : start + l.byteSize ≤ t.byteSize := by
  rw [getElem?_numbered, Option.map_eq_some_iff] at h
  obtain ⟨l', hget, heq⟩ := h
  obtain ⟨rfl, rfl⟩ := Prod.mk.inj heq
  obtain ⟨above, below, hline⟩ := Text.exists_isLine hget
  have hstart : t.lineStart index = above.byteSize := hline.lines_eq.2
  have hsize := congrArg Text.byteSize hline.split
  rw [Text.byteSize_append, Text.byteSize_append, ← hstart] at hsize
  rw [Nat.zero_add]
  change t.lineStart index + l'.byteSize ≤ t.byteSize
  omega

/-- An edge lies on the line. -/
theorem le_of_edges {index within : Nat} {l : Text} (h : (edges 0 l)[index]? = some within) :
    within ≤ l.byteSize := by
  rw [getElem?_edges, Option.ite_none_right_eq_some] at h
  have hsize := congrArg Text.byteSize (List.take_append_drop index l)
  rw [Text.byteSize_append] at hsize
  have hwithin := Option.some.inj h.2
  omega

/-- Nothing on the way to an answer is below zero or above the greatest word, if the size of the
text is below it. -/
theorem offsetOf?_eq {t : Text} (h : t.byteSize < max) (p : Position) :
    offsetOf? max t p = some (t.offsetOf p) := by
  rw [← PlaceScan.offsetOf_eq, offsetOf?, PlaceScan.offsetOf]
  by_cases hzero : p.line = 0 ∨ p.column = 0
  · rw [if_pos hzero, if_pos hzero]
  · have hlines : nthLine? max 0 t.lines (p.line - 1) =
        some (numbered 0 t.lines)[p.line - 1]? := by
      apply nthLine?_eq
      rw [size_lines]
      omega
    rw [if_neg hzero, if_neg hzero, sub?_of_le (show 1 ≤ p.line by omega)]
    simp only [Option.bind_eq_bind, Option.bind_some, hlines]
    cases hl : (numbered 0 t.lines)[p.line - 1]? with
    | none =>
      have hlength := Text.length_le_byteSize t
      have hfeeds : t.countP (· = '\n') ≤ t.length := List.countP_le_length
      rw [count?_eq (by omega)]
      simp only [Option.bind_some]
      rw [add?_of_le (by omega), Nat.zero_add]
      rfl
    | some numberedLine =>
      obtain ⟨start, l⟩ := numberedLine
      have hsize := size_of_numbered hl
      have hedges : nthEdge? max 0 l (p.column - 1) = some (edges 0 l)[p.column - 1]? := by
        apply nthEdge?_eq
        omega
      simp only [sub?_of_le (show 1 ≤ p.column by omega), Option.bind_some, hedges]
      cases hedge : (edges 0 l)[p.column - 1]? with
      | none =>
        have hlength := Text.length_le_byteSize l
        simp only [count?_eq (q := fun _ => true) (show 0 + l.length ≤ max by omega),
          Option.bind_some, List.countP_true, Nat.zero_add]
        rfl
      | some within =>
        have hwithin := le_of_edges hedge
        simp only [add?_of_le (show start + within ≤ max by omega), Option.bind_some]
        rfl

end WordScan

namespace Text

/-- `offsetOf` has exactly one answer for every position.  A zero comes first; then a line beyond
the text, which has one line more than line feeds; then a column beyond the end of its line, counted
in characters; everything else has an offset.  Whatever is missing, the request is handed back as it
was made.  The last line that is reported has a beginning and the next one is not there; the last
column that is reported is that of a line feed or of the end of the text, and the next one is not
there.  None of the numbers on the way is below zero or more than one above the size of the text. -/
theorem offsetOf_exact (t : Text) (p : Position) :
    (t.offsetOf p = .error ⟨.zero, p⟩ ↔ p.line = 0 ∨ p.column = 0) ∧
    (∀ lines, t.offsetOf p = .error ⟨.noLine lines, p⟩ ↔
      0 < p.line ∧ 0 < p.column ∧ t.count '\n' + 1 < p.line ∧ lines = t.count '\n' + 1) ∧
    (∀ width, t.offsetOf p = .error ⟨.noColumn width, p⟩ ↔
      ∃ above line below, IsLine t p.line above line below ∧ line.length + 1 < p.column ∧
        width = line.length) ∧
    (∀ n, t.offsetOf p = .ok n ↔
      ∃ above line below, IsLine t p.line above line below ∧ 0 < p.column ∧
        p.column ≤ line.length + 1 ∧ n = (above ++ line.take (p.column - 1)).byteSize) ∧
    (∀ number, (∃ above line below, IsLine t number above line below) ↔
      0 < number ∧ number ≤ t.count '\n' + 1) ∧
    (∀ e, t.offsetOf p = .error e → e.requested = p) ∧
    (∀ lines q, t.offsetOf p = .error ⟨.noLine lines, q⟩ →
      (∃ n, t.offsetOf ⟨lines, 1⟩ = .ok n) ∧
      t.offsetOf ⟨lines + 1, 1⟩ = .error ⟨.noLine lines, ⟨lines + 1, 1⟩⟩) ∧
    (∀ width q, t.offsetOf p = .error ⟨.noColumn width, q⟩ →
      (∃ before after, t = before ++ after ∧ (after = [] ∨ after.head? = some '\n') ∧
        before.count '\n' + 1 = p.line ∧ t.offsetOf ⟨p.line, width + 1⟩ = .ok before.byteSize) ∧
      t.offsetOf ⟨p.line, width + 2⟩ = .error ⟨.noColumn width, ⟨p.line, width + 2⟩⟩) ∧
    (∀ max, t.byteSize < max → WordScan.offsetOf? max t p = some (t.offsetOf p)) := by
  simp only [offsetOf_eq_iff_answers (p := p)]
  refine ⟨?_, ?_, ?_, ?_, exists_isLine_iff t, ?_, ?_, ?_, fun max h => WordScan.offsetOf?_eq h p⟩
  · constructor
    · rintro ⟨h⟩
      exact h
    · exact .zero
  · intro lines
    constructor
    · rintro (_ | ⟨hcolumn, h⟩)
      exact ⟨by omega, hcolumn, h, rfl⟩
    · rintro ⟨-, hcolumn, h, rfl⟩
      exact .noLine hcolumn h
  · intro width
    constructor
    · rintro (_ | _ | ⟨hline, h⟩)
      exact ⟨_, _, _, hline, h, rfl⟩
    · rintro ⟨above, line, below, hline, h, rfl⟩
      exact .noColumn hline h
  · intro n
    constructor
    · rintro (_ | _ | _ | ⟨hline, hcolumn, h⟩)
      exact ⟨_, _, _, hline, hcolumn, h, rfl⟩
    · rintro ⟨above, line, below, hline, hcolumn, h, rfl⟩
      exact .found hline hcolumn h
  · intro e h
    cases h <;> rfl
  · intro lines q h
    cases h
    exact t.offsetOf_last_line
  · intro width q h
    cases h with
    | @noColumn above line below hline h =>
      refine ⟨⟨above ++ line, below, ?_, hline.ends, ?_, hline.offsetOf_end.1⟩,
        hline.offsetOf_end.2⟩
      · rw [hline.split, List.append_assoc]
      · rw [List.count_append, List.count_eq_zero.2 hline.unbroken, hline.number_eq]

/-- The line behind the last line feed is empty and has a column, and characters are counted. -/
example :
    offsetOf "é\n".toList ⟨2, 2⟩ = .error ⟨.noColumn 0, ⟨2, 2⟩⟩ ∧
    offsetOf "é\n".toList ⟨2, 1⟩ = .ok 3 ∧ offsetOf "é\n".toList ⟨1, 2⟩ = .ok 2 ∧
    offsetOf "é\n".toList ⟨3, 1⟩ = .error ⟨.noLine 2, ⟨3, 1⟩⟩ := by
  refine ⟨?_, ?_, ?_, ?_⟩ <;> rfl

end Text

end ScriptWorkbench
