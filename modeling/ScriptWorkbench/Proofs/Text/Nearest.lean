import ScriptWorkbench.Proofs.Text.Places

/-!
# The nearest offset

Offsets between the characters of a text are ordered as their positions are
(`Text.IsBoundary.positionAt_le_iff`).  `Text.nearestOffset` answers with the greatest of them whose
position is not beyond the one that was asked for (`Text.nearestOffset_greatest`).  It is found line
by line and not by this order, so the greatest position of a text below a given one is said first
(`Text.exists_greatest`).
-/

set_option autoImplicit false

namespace ScriptWorkbench

namespace Position

/-- The order of positions is transitive. -/
theorem le_trans {p q r : Position} (hpq : p ≤ q) (hqr : q ≤ r) : p ≤ r := by
  rw [le_def] at hpq hqr ⊢
  omega

/-- The order of positions is antisymmetric. -/
theorem le_antisymm {p q : Position} (hpq : p ≤ q) (hqp : q ≤ p) : p = q := by
  obtain ⟨line, column⟩ := p
  obtain ⟨line', column'⟩ := q
  simp only [le_def] at hpq hqp
  rw [mk.injEq]
  omega

/-- A raised position has a line and a column. -/
theorem raise_pos (p : Position) : 0 < p.raise.line ∧ 0 < p.raise.column :=
  ⟨Nat.le_max_right _ _, Nat.le_max_right _ _⟩

/-- Raising zeros keeps the order of lines and columns. -/
theorem raise_le_raise {p q : Position} (hline : p.line ≤ q.line) (hcolumn : p.column ≤ q.column) :
    p.raise ≤ q.raise := by
  simp only [le_def, raise]
  omega

end Position

namespace Text

/-! ## The order of positions -/

/-- One more character goes on with the line or begins the next one. -/
theorem endPosition_concat (s : Text) (c : Char) :
    (s ++ [c]).endPosition =
      if c = '\n' then ⟨s.endPosition.line + 1, 1⟩
      else ⟨s.endPosition.line, s.endPosition.column + 1⟩ := by
  by_cases hc : c = '\n' <;> simp [endPosition, lineCount, hc]

/-- The end of a text is not before the end of any of its beginnings. -/
theorem endPosition_le_append (s u : Text) : s.endPosition ≤ (s ++ u).endPosition := by
  induction u generalizing s with
  | nil =>
    rw [List.append_nil]
    exact Or.inr ⟨rfl, Nat.le_refl _⟩
  | cons c u ih =>
    have hone : s.endPosition ≤ (s ++ [c]).endPosition := by
      rw [endPosition_concat, Position.le_def]
      split
      · exact Or.inl (Nat.lt_succ_self _)
      · exact Or.inr ⟨rfl, Nat.le_succ _⟩
    have hrest := ih (s ++ [c])
    rw [List.append_assoc, List.singleton_append] at hrest
    exact Position.le_trans hone hrest

variable {t : Text}

/-- A later boundary has no earlier position. -/
theorem IsBoundary.positionAt_le {m n : Nat} (hm : t.IsBoundary m) (hn : t.IsBoundary n)
    (hmn : m ≤ n) : t.positionAt m ≤ t.positionAt n := by
  obtain ⟨s, after, rfl, rfl⟩ := hm
  obtain ⟨s', after', hsplit, rfl⟩ := hn
  have hend : (s ++ after).positionAt s'.byteSize = s'.endPosition := by
    rw [hsplit, positionAt_append]
  rw [positionAt_append, hend]
  rcases List.append_eq_append_iff.1 hsplit with ⟨u, rfl, -⟩ | ⟨u, rfl, -⟩
  · exact endPosition_le_append s u
  · -- the earlier offset is not behind the later one, so nothing stands between them
    cases u with
    | nil =>
      rw [List.append_nil]
      exact Or.inr ⟨rfl, Nat.le_refl _⟩
    | cons c u =>
      have hpos := c.utf8Size_pos
      rw [byteSize_append, byteSize_cons] at hmn
      omega

/-- Offsets between characters are ordered as their positions are. -/
theorem IsBoundary.positionAt_le_iff {m n : Nat} (hm : t.IsBoundary m) (hn : t.IsBoundary n) :
    t.positionAt m ≤ t.positionAt n ↔ m ≤ n := by
  constructor
  · intro h
    refine Nat.le_of_not_lt ?_
    intro hlt
    have hsame := Position.le_antisymm h (hn.positionAt_le hm (Nat.le_of_lt hlt))
    have hok := hm.offsetOf_positionAt
    rw [hsame, hn.offsetOf_positionAt, Except.ok.injEq] at hok
    omega
  · exact hm.positionAt_le hn

/-- The positions of a text are those of its boundaries. -/
theorem positionAt_of_offsetOf {p : Position} {n : Nat} (h : t.offsetOf p = .ok n) :
    t.IsBoundary n ∧ t.positionAt n = p := by
  obtain ⟨before, after, rfl, rfl, rfl⟩ := offsetOf_eq_ok_iff.1 h
  exact ⟨⟨before, after, rfl, rfl⟩, positionAt_append before after⟩

/-- The end of a text is a boundary. -/
theorem isBoundary_byteSize (t : Text) : t.IsBoundary t.byteSize :=
  ⟨t, [], (List.append_nil t).symm, rfl⟩

/-- A text has as many lines as are counted. -/
theorem length_lines (t : Text) : t.lines.length = t.lineCount := by
  induction t using line_induction with
  | last l hl => simp [lines_of_notMem hl, lineCount, List.count_eq_zero.2 hl]
  | line l t hl ih => simp [lines_append hl, ih, lineCount, List.count_eq_zero.2 hl]

/-- A column is missing only where there is a line and it is shorter. -/
theorem offsetOf_eq_noColumn {p q : Position} {width : Nat}
    (h : t.offsetOf p = .error ⟨.noColumn width, q⟩) :
    ∃ l, t.lines[p.line - 1]? = some l ∧ width = l.length ∧ q = p ∧ l.length < p.column - 1 := by
  unfold offsetOf at h
  split at h
  · cases h
  · split at h
    · cases h
    · rename_i l hl
      split at h
      · cases h
      · rename_i hwidth
        cases h
        exact ⟨l, hl, rfl, rfl, Nat.lt_of_not_le hwidth⟩

/-! ## The greatest position below a given one -/

/-- A line that is there has its end as a position, and what is asked for beyond the end is nearest
to it. -/
theorem nearestOffset_of_line {p : Position} {l : Text}
    (hl : t.lines[p.raise.line - 1]? = some l) :
    t.offsetOf ⟨p.raise.line, min p.raise.column (l.length + 1)⟩ = .ok (t.nearestOffset p) := by
  obtain ⟨hline, hcolumn⟩ := p.raise_pos
  by_cases hwidth : p.raise.column ≤ l.length + 1
  · have hok : t.offsetOf p.raise =
        .ok (t.lineStart (p.raise.line - 1) + byteSize (l.take (p.raise.column - 1))) :=
      offsetOf_eq_ok_iff_lines.2 ⟨hline, hcolumn, l, hl, by omega, rfl⟩
    rw [Nat.min_eq_left hwidth, nearestOffset, hok, ← hok]
  · have hend : t.offsetOf ⟨p.raise.line, l.length + 1⟩ =
        .ok (t.lineStart (p.raise.line - 1) + byteSize (l.take l.length)) :=
      offsetOf_eq_ok_iff_lines.2 ⟨hline, Nat.succ_pos _, l, hl, Nat.le_refl _, rfl⟩
    have herror : t.offsetOf p.raise = .error ⟨.noColumn l.length, p.raise⟩ := by
      rw [offsetOf, if_neg (by omega), hl]
      exact if_neg (by omega)
    rw [Nat.min_eq_right (by omega), nearestOffset, herror]
    simp only [hend]

/-- Where the line is missing, the nearest offset is the end of the text. -/
theorem nearestOffset_of_no_line {p : Position} (hl : t.lines[p.raise.line - 1]? = none) :
    t.nearestOffset p = t.byteSize := by
  obtain ⟨hline, hcolumn⟩ := p.raise_pos
  have herror : t.offsetOf p.raise = .error ⟨.noLine t.lineCount, p.raise⟩ := by
    rw [offsetOf, if_neg (by omega), hl]
  rw [nearestOffset, herror]

/-- The nearest offset is that of the greatest position of the text that is not beyond the one that
was asked for. -/
theorem exists_greatest (t : Text) (p : Position) :
    ∃ r, t.offsetOf r = .ok (t.nearestOffset p) ∧ r ≤ p.raise ∧
      ∀ q n, t.offsetOf q = .ok n → q ≤ p.raise → q ≤ r := by
  cases hl : t.lines[p.raise.line - 1]? with
  | some l =>
    refine ⟨_, nearestOffset_of_line hl, Or.inr ⟨rfl, Nat.min_le_left _ _⟩, ?_⟩
    intro q n hq hle
    rcases hle with hline | ⟨hline, hcolumn⟩
    · exact Or.inl hline
    · -- on the same line both columns are bounded by its width
      obtain ⟨-, -, l', hl', hwidth, -⟩ := offsetOf_eq_ok_iff_lines.1 hq
      rw [hline, hl, Option.some.injEq] at hl'
      subst hl'
      exact Or.inr ⟨hline, Nat.le_min.2 ⟨hcolumn, by omega⟩⟩
  | none =>
    have hboundary := t.isBoundary_byteSize
    have hend := hboundary.offsetOf_positionAt
    refine ⟨t.positionAt t.byteSize, ?_, ?_, ?_⟩
    · rw [nearestOffset_of_no_line hl, hend]
    · -- the last line is above the one that was asked for
      obtain ⟨hpos, -, l, hlast, -⟩ := offsetOf_eq_ok_iff_lines.1 hend
      obtain ⟨hlt, -⟩ := List.getElem?_eq_some_iff.1 hlast
      have hbeyond := List.getElem?_eq_none_iff.1 hl
      exact Or.inl (by omega)
    · intro q n hq _
      obtain ⟨hn, rfl⟩ := positionAt_of_offsetOf hq
      exact (hn.positionAt_le_iff hboundary).2 hn.le_byteSize

/-- The nearest offset is a boundary. -/
theorem isBoundary_nearestOffset (t : Text) (p : Position) : t.IsBoundary (t.nearestOffset p) := by
  obtain ⟨r, hr, -⟩ := t.exists_greatest p
  exact (positionAt_of_offsetOf hr).1

/-- The boundaries up to the nearest offset are those whose position is not behind the one that is
asked for. -/
theorem IsBoundary.le_nearestOffset_iff {o : Nat} (ho : t.IsBoundary o) (p : Position) :
    o ≤ t.nearestOffset p ↔ t.positionAt o ≤ p.raise := by
  obtain ⟨r, hr, hle, hall⟩ := t.exists_greatest p
  obtain ⟨hboundary, hposition⟩ := positionAt_of_offsetOf hr
  rw [← ho.positionAt_le_iff hboundary, hposition]
  constructor
  · intro h
    exact Position.le_trans h hle
  · exact hall _ o ho.offsetOf_positionAt

/-- A later position has no earlier offset. -/
theorem nearestOffset_le {p q : Position} (hpq : p.raise ≤ q.raise) :
    t.nearestOffset p ≤ t.nearestOffset q := by
  have hboundary := t.isBoundary_nearestOffset p
  have hself := (hboundary.le_nearestOffset_iff p).1 (Nat.le_refl _)
  exact (hboundary.le_nearestOffset_iff q).2 (Position.le_trans hself hpq)

/-- `nearestOffset` answers with the greatest boundary whose position is not beyond the one that was
asked for, zeros counting as one.  It is the offset of a position that exists and does not decrease
when lines or columns increase.  A column beyond its line stays on the line and gives its end, which
is always there; a line beyond the text gives the end of the text. -/
theorem nearestOffset_greatest (t : Text) (p : Position) :
    t.IsBoundary (t.nearestOffset p) ∧ t.nearestOffset p ≤ t.byteSize ∧
    (∀ o, t.IsBoundary o → (o ≤ t.nearestOffset p ↔ t.positionAt o ≤ p.raise)) ∧
    (∀ n, t.offsetOf p = .ok n → t.nearestOffset p = n) ∧
    (∀ q : Position, p.raise ≤ q.raise → t.nearestOffset p ≤ t.nearestOffset q) ∧
    (∀ q : Position, p.line ≤ q.line → p.column ≤ q.column →
      t.nearestOffset p ≤ t.nearestOffset q) ∧
    (p.raise.line ≤ t.lineCount → (t.positionAt (t.nearestOffset p)).line = p.raise.line) ∧
    (t.lineCount < p.raise.line → t.nearestOffset p = t.byteSize) ∧
    (∀ width q, t.offsetOf p.raise = .error ⟨.noColumn width, q⟩ →
      t.offsetOf ⟨q.line, width + 1⟩ = .ok (t.nearestOffset p)) := by
  have hboundary := t.isBoundary_nearestOffset p
  refine ⟨hboundary, hboundary.le_byteSize, fun o ho => ho.le_nearestOffset_iff p,
    fun n h => nearestOffset_of_offsetOf h, fun q hpq => nearestOffset_le hpq,
    fun q hline hcolumn => nearestOffset_le (Position.raise_le_raise hline hcolumn), ?_, ?_, ?_⟩
  · intro hline
    have hpos := p.raise_pos.1
    have hlt : p.raise.line - 1 < t.lines.length := by
      rw [length_lines]
      omega
    rw [(positionAt_of_offsetOf (nearestOffset_of_line (List.getElem?_eq_getElem hlt))).2]
  · intro hline
    refine nearestOffset_of_no_line (List.getElem?_eq_none ?_)
    rw [length_lines]
    omega
  · intro width q herror
    obtain ⟨l, hl, rfl, rfl, hbeyond⟩ := offsetOf_eq_noColumn herror
    have hend := nearestOffset_of_line hl
    rwa [Nat.min_eq_right (by omega)] at hend

/-- A column beyond the first line, and a line beyond the text. -/
example : nearestOffset "é\nab".toList ⟨0, 9⟩ = 2 ∧ nearestOffset "é\nab".toList ⟨7, 0⟩ = 5 := by
  decide +kernel

end Text

end ScriptWorkbench
