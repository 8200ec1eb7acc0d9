import ScriptWorkbench.Proofs.Text.Encoding
import ScriptWorkbench.Text.PlaceScan

/-!
# Offsets and positions

A text is a line, or a line, a line feed and a text (`Text.line_induction`).  By this induction a
position has an offset exactly if some beginning of the text ends at the position, and then the
offset is the size of this beginning (`Text.offsetOf_eq_ok_iff`).  So offsets between characters and
the positions that a text has correspond one to one, and every other offset has the position of the
last place between characters before it (`Text.positionAt_inverse`).
-/

set_option autoImplicit false

namespace ScriptWorkbench

namespace Text

/-! ## Places between characters -/

/-- A boundary is not behind the end. -/
theorem IsBoundary.le_byteSize {t : Text} {n : Nat} (h : t.IsBoundary n) : n ≤ t.byteSize := by
  obtain ⟨before, after, rfl, rfl⟩ := h
  rw [byteSize_append]
  exact Nat.le_add_right _ _

/-- A beginning that is small enough is taken whole. -/
theorem takeBytes_append_of_le {s : Text} {n : Nat} (h : s.byteSize ≤ n) (t : Text) :
    (s ++ t).takeBytes n = s ++ t.takeBytes (n - s.byteSize) := by
  induction s generalizing n with
  | nil => rfl
  | cons c s ih =>
    rw [byteSize_cons] at h
    have hc : c.utf8Size ≤ n := by omega
    rw [List.cons_append, takeBytes, if_pos hc, ih (by omega), byteSize_cons, Nat.sub_sub]
    rfl

/-- `floorBoundary` answers with the greatest boundary. -/
theorem IsBoundary.le_floorBoundary {t : Text} {m n : Nat} (h : t.IsBoundary m) (hmn : m ≤ n) :
    m ≤ t.floorBoundary n := by
  obtain ⟨before, after, rfl, rfl⟩ := h
  rw [floorBoundary, takeBytes_append_of_le hmn, byteSize_append]
  exact Nat.le_add_right _ _

/-- The last boundary up to an offset is not behind it. -/
theorem floorBoundary_le (t : Text) (n : Nat) : t.floorBoundary n ≤ n :=
  byteSize_takeBytes_le t n

/-- What fits up to an offset is what stands up to the last boundary before it. -/
theorem takeBytes_floorBoundary (t : Text) (n : Nat) :
    t.takeBytes (t.floorBoundary n) = t.takeBytes n := by
  have hcut := takeBytes_append_byteSize (t.takeBytes n) (t.dropBytes n)
  rwa [takeBytes_append_dropBytes] at hcut

/-- The end of a text is as far as one can go. -/
theorem floorBoundary_min (t : Text) (n : Nat) :
    t.floorBoundary (min n t.byteSize) = t.floorBoundary n := by
  apply Nat.le_antisymm
  · exact (isBoundary_floorBoundary t _).le_floorBoundary
      (Nat.le_trans (floorBoundary_le t _) (Nat.min_le_left _ _))
  · have hbelow := isBoundary_floorBoundary t n
    exact hbelow.le_floorBoundary (Nat.le_min.2 ⟨floorBoundary_le t n, hbelow.le_byteSize⟩)

/-! ## Line by line -/

/-- A text is a line, or a line with a line feed and a text behind it. -/
theorem line_induction {motive : Text → Prop} (last : ∀ l : Text, '\n' ∉ l → motive l)
    (line : ∀ l t : Text, '\n' ∉ l → motive t → motive (l ++ '\n' :: t)) (t : Text) :
    motive t := by
  induction hn : t.length using Nat.strongRecOn generalizing t with
  | ind n ih =>
    by_cases hfeed : '\n' ∈ t
    · obtain ⟨l, rest, rfl, hl⟩ := List.eq_append_cons_of_mem hfeed
      refine line l rest hl (ih rest.length ?_ rest rfl)
      rw [List.length_append, List.length_cons] at hn
      omega
    · exact last t hfeed

/-- A text without a line feed is one line. -/
theorem lines_of_notMem {l : Text} (h : '\n' ∉ l) : lines l = [l] := by
  induction l with
  | nil => rfl
  | cons c l ih =>
    rw [List.mem_cons, not_or] at h
    rw [lines, if_neg (Ne.symm h.1), ih h.2]

/-- The first line feed of a text ends its first line. -/
theorem lines_append {l : Text} (h : '\n' ∉ l) (t : Text) :
    lines (l ++ '\n' :: t) = l :: lines t := by
  induction l with
  | nil => rfl
  | cons c l ih =>
    rw [List.mem_cons, not_or] at h
    rw [List.cons_append, lines, if_neg (Ne.symm h.1), ih h.2]

/-- A line in front adds one line feed. -/
theorem count_append_feed {l : Text} (h : '\n' ∉ l) (t : Text) :
    (l ++ '\n' :: t).count '\n' = t.count '\n' + 1 := by
  rw [List.count_append, List.count_eq_zero.2 h, List.count_cons_self, Nat.zero_add]

/-- A line in front adds its bytes and one more. -/
theorem byteSize_append_feed (l t : Text) :
    byteSize (l ++ '\n' :: t) = l.byteSize + 1 + t.byteSize := by
  have hfeed : '\n'.utf8Size = 1 := rfl
  rw [byteSize_append, byteSize_cons, hfeed, Nat.add_assoc]

/-- Behind a first line the lines begin that much later. -/
theorem lineStart_append_feed {l : Text} (h : '\n' ∉ l) (t : Text) (index : Nat) :
    (l ++ '\n' :: t).lineStart (index + 1) = l.byteSize + 1 + t.lineStart index := by
  rw [lineStart, lines_append h, List.take_succ_cons, List.foldr_cons]
  rfl

/-- The first line of a text begins with whatever unbroken text the text begins with. -/
theorem exists_lines_append {l : Text} (h : '\n' ∉ l) (t : Text) :
    ∃ rest ls, lines (l ++ t) = (l ++ rest) :: ls := by
  induction t using line_induction with
  | last u hu =>
    have hboth : '\n' ∉ l ++ u := by simp [h, hu]
    exact ⟨u, [], lines_of_notMem hboth⟩
  | line u t hu _ =>
    have hboth : '\n' ∉ l ++ u := by simp [h, hu]
    refine ⟨u, lines t, ?_⟩
    rw [← List.append_assoc, lines_append hboth]

/-! ## Positions -/

/-- The position just behind a text. -/
def endPosition (t : Text) : Position :=
  ⟨t.lineCount, (t.reverse.takeWhile (· ≠ '\n')).length + 1⟩

/-- The position between two parts of a text is that at the end of the first. -/
theorem positionAt_append (s t : Text) : (s ++ t).positionAt s.byteSize = s.endPosition := by
  rw [positionAt, takeBytes_append_byteSize]
  rfl

/-- The position at the end of a line is on the first line, behind its characters. -/
theorem endPosition_of_notMem {l : Text} (h : '\n' ∉ l) : l.endPosition = ⟨1, l.length + 1⟩ := by
  have hall : ∀ c ∈ l.reverse, decide (c ≠ '\n') = true := by
    intro c hc
    rw [decide_eq_true_eq]
    rintro rfl
    exact h (List.mem_reverse.1 hc)
  have htail : l.reverse.takeWhile (· ≠ '\n') = l.reverse := by
    simpa using @List.takeWhile_append_of_pos _ _ _ [] hall
  rw [endPosition, lineCount, List.count_eq_zero.2 h, htail, List.length_reverse]

/-- A line in front moves the position at the end down by one line. -/
theorem endPosition_append {l : Text} (h : '\n' ∉ l) (t : Text) :
    (l ++ '\n' :: t).endPosition = ⟨t.endPosition.line + 1, t.endPosition.column⟩ := by
  have htail : (l ++ '\n' :: t).reverse.takeWhile (· ≠ '\n') =
      t.reverse.takeWhile (· ≠ '\n') := by
    rw [List.reverse_append, List.reverse_cons, List.append_assoc, List.takeWhile_append]
    split
    · rename_i hwhole
      have hself : t.reverse.takeWhile (· ≠ '\n') = t.reverse :=
        (List.takeWhile_prefix _).eq_of_length hwhole
      rw [hself, List.singleton_append, List.takeWhile_cons_of_neg (by simp), List.append_nil]
    · rfl
  rw [endPosition, lineCount, count_append_feed h, htail]
  rfl

/-- A position has an offset if its line is there and is wide enough. -/
theorem offsetOf_eq_ok_iff_lines {t : Text} {p : Position} {n : Nat} :
    t.offsetOf p = .ok n ↔ 0 < p.line ∧ 0 < p.column ∧ ∃ l, t.lines[p.line - 1]? = some l ∧
      p.column - 1 ≤ l.length ∧
      n = t.lineStart (p.line - 1) + byteSize (l.take (p.column - 1)) := by
  unfold offsetOf
  by_cases hzero : p.line = 0 ∨ p.column = 0
  · rw [if_pos hzero]
    constructor
    · intro h
      cases h
    · rintro ⟨hline, hcolumn, -⟩
      omega
  · rw [if_neg hzero]
    cases hl : t.lines[p.line - 1]? with
    | none => simp
    | some l =>
      by_cases hwidth : p.column - 1 ≤ l.length
      · simp only [if_pos hwidth, Except.ok.injEq, Option.some.injEq]
        constructor
        · rintro rfl
          exact ⟨by omega, by omega, l, rfl, hwidth, rfl⟩
        · rintro ⟨-, -, l, rfl, -, rfl⟩
          rfl
      · simp only [if_neg hwidth, Option.some.injEq]
        constructor
        · intro h
          cases h
        · rintro ⟨-, -, l, rfl, hwide, -⟩
          exact absurd hwide hwidth

/-- A position below the first line is a position of what stands below it. -/
theorem offsetOf_append_eq_ok_iff {l : Text} (h : '\n' ∉ l) (t : Text) {p : Position} {n : Nat}
    (hp : 0 < p.line) :
    (l ++ '\n' :: t).offsetOf ⟨p.line + 1, p.column⟩ = .ok n ↔
      ∃ m, t.offsetOf p = .ok m ∧ n = l.byteSize + 1 + m := by
  obtain ⟨line, column⟩ := p
  obtain ⟨index, rfl⟩ := Nat.exists_eq_succ_of_ne_zero (Nat.pos_iff_ne_zero.1 hp)
  simp only [offsetOf_eq_ok_iff_lines, lines_append h, Nat.succ_eq_add_one, Nat.add_sub_cancel,
    List.getElem?_cons_succ, lineStart_append_feed h]
  constructor
  · rintro ⟨-, hcolumn, l', hl', hwidth, rfl⟩
    exact ⟨_, ⟨hp, hcolumn, l', hl', hwidth, rfl⟩, by omega⟩
  · rintro ⟨m, ⟨-, hcolumn, l', hl', hwidth, rfl⟩, rfl⟩
    exact ⟨by omega, hcolumn, l', hl', hwidth, by omega⟩

/-- The end of a beginning of a text has the size of the beginning as its offset. -/
theorem offsetOf_endPosition (s t : Text) : (s ++ t).offsetOf s.endPosition = .ok s.byteSize := by
  induction s using line_induction with
  | last l hl =>
    obtain ⟨rest, ls, hlines⟩ := exists_lines_append hl t
    rw [endPosition_of_notMem hl, offsetOf_eq_ok_iff_lines]
    refine ⟨Nat.one_pos, Nat.succ_pos _, l ++ rest, by rw [hlines]; rfl, ?_, ?_⟩
    · simp
    · simp [lineStart]
  | line l s hl ih =>
    rw [List.append_assoc, List.cons_append, endPosition_append hl,
      offsetOf_append_eq_ok_iff hl _ (Nat.succ_pos _)]
    exact ⟨s.byteSize, ih, byteSize_append_feed l s⟩

/-- The position of a boundary leads back to it. -/
theorem IsBoundary.offsetOf_positionAt {t : Text} {n : Nat} (h : t.IsBoundary n) :
    t.offsetOf (t.positionAt n) = .ok n := by
  obtain ⟨before, after, rfl, rfl⟩ := h
  rw [positionAt_append, offsetOf_endPosition]

/-- The place nearest to a position that exists is that position. -/
theorem nearestOffset_of_offsetOf {t : Text} {p : Position} {n : Nat} (h : t.offsetOf p = .ok n) :
    t.nearestOffset p = n := by
  obtain ⟨hline, hcolumn, -⟩ := offsetOf_eq_ok_iff_lines.1 h
  have hraise : p.raise = p := by
    rw [Position.raise, Nat.max_eq_left hline, Nat.max_eq_left hcolumn]
  rw [nearestOffset, hraise, h]

/-- On the first line a position is the end of a beginning of the line. -/
theorem exists_of_offsetOf_first {l rest : Text} (hl : '\n' ∉ l) {ls : List Text}
    (hlines : (l ++ rest).lines = l :: ls) {column n : Nat}
    (h : (l ++ rest).offsetOf ⟨1, column⟩ = .ok n) :
    ∃ before after, l ++ rest = before ++ after ∧ before.byteSize = n ∧
      before.endPosition = ⟨1, column⟩ := by
  obtain ⟨-, hcolumn, l', hl', hwidth, rfl⟩ := offsetOf_eq_ok_iff_lines.1 h
  rw [hlines] at hl'
  cases hl'
  have htake : '\n' ∉ l.take (column - 1) := fun hmem => hl (List.mem_of_mem_take hmem)
  refine ⟨l.take (column - 1), l.drop (column - 1) ++ rest, ?_, ?_, ?_⟩
  · rw [← List.append_assoc, List.take_append_drop]
  · simp [lineStart]
  · rw [endPosition_of_notMem htake, List.length_take, Nat.min_eq_left hwidth,
      Nat.sub_add_cancel hcolumn]

/-- Where a position has an offset, a beginning of the text ends at the position. -/
theorem exists_of_offsetOf_eq_ok {t : Text} {p : Position} {n : Nat} (h : t.offsetOf p = .ok n) :
    ∃ before after, t = before ++ after ∧ before.byteSize = n ∧ before.endPosition = p := by
  obtain ⟨line, column⟩ := p
  obtain ⟨index, rfl⟩ := Nat.exists_eq_succ_of_ne_zero
    (Nat.pos_iff_ne_zero.1 (offsetOf_eq_ok_iff_lines.1 h).1)
  induction t using line_induction generalizing index n with
  | last l hl =>
    obtain ⟨-, -, l', hl', -⟩ := offsetOf_eq_ok_iff_lines.1 h
    cases index with
    | zero =>
      rw [← List.append_nil l] at h ⊢
      exact exists_of_offsetOf_first hl (by rw [List.append_nil, lines_of_notMem hl]) h
    | succ index =>
      -- there is no second line
      rw [lines_of_notMem hl] at hl'
      cases hl'
  | line l t hl ih =>
    cases index with
    | zero => exact exists_of_offsetOf_first hl (lines_append hl t) h
    | succ index =>
      obtain ⟨m, hm, rfl⟩ :=
        (offsetOf_append_eq_ok_iff hl t (p := ⟨index + 1, column⟩) (Nat.succ_pos _)).1 h
      obtain ⟨before, after, rfl, rfl, hend⟩ := ih index hm
      refine ⟨l ++ '\n' :: before, after, by simp, byteSize_append_feed l before, ?_⟩
      rw [endPosition_append hl, hend]

/-- The positions of a text are the ends of its beginnings. -/
theorem offsetOf_eq_ok_iff {t : Text} {p : Position} {n : Nat} :
    t.offsetOf p = .ok n ↔
      ∃ before after, t = before ++ after ∧ before.byteSize = n ∧ before.endPosition = p := by
  constructor
  · exact exists_of_offsetOf_eq_ok
  · rintro ⟨before, after, rfl, rfl, rfl⟩
    exact offsetOf_endPosition before after

end Text

namespace PlaceScan

/-! ## The same by running offsets -/

/-- Each line is numbered with the bytes of all lines before it. -/
theorem getElem?_numbered (start index : Nat) (ls : List Text) :
    (numbered start ls)[index]? = ls[index]?.map fun l =>
      (start + (ls.take index).foldr (fun l n => l.byteSize + 1 + n) 0, l) := by
  induction ls generalizing start index with
  | nil => rfl
  | cons l ls ih =>
    cases index with
    | zero => rfl
    | succ index =>
      rw [numbered, List.getElem?_cons_succ, ih, List.getElem?_cons_succ, List.take_succ_cons,
        List.foldr_cons]
      simp only [Nat.add_assoc]

/-- The edges of a line are the offsets of its characters and that of its end. -/
theorem getElem?_edges (start index : Nat) (l : Text) :
    (edges start l)[index]? =
      if index ≤ l.length then some (start + Text.byteSize (l.take index)) else none := by
  induction l generalizing start index with
  | nil => cases index <;> rfl
  | cons c l ih =>
    cases index with
    | zero => rfl
    | succ index =>
      rw [edges, List.getElem?_cons_succ, ih]
      simp [Nat.add_assoc]

/-- Counting up the bytes of lines and characters finds the offset of a position. -/
theorem offsetOf_eq (t : Text) (p : Position) : offsetOf t p = t.offsetOf p := by
  unfold offsetOf Text.offsetOf
  split
  · rfl
  · rw [getElem?_numbered]
    cases t.lines[p.line - 1]? with
    | none => rfl
    | some l =>
      simp only [Option.map_some, getElem?_edges]
      by_cases hwidth : p.column - 1 ≤ l.length
      · simp only [if_pos hwidth, Nat.zero_add]
        rfl
      · simp only [if_neg hwidth]

/-! ## The same by going back -/

/-- Of the bytes of a character only the first one is not an inner byte. -/
theorem exists_utf8EncodeChar (c : Char) : ∃ b bs, String.utf8EncodeChar c = b :: bs ∧
    isInnerByte b = false ∧ ∀ b' ∈ bs, isInnerByte b' = true := by
  have houter : ∀ n : Nat, n < 128 ∨ 192 ≤ n ∧ n < 256 → isInnerByte (UInt8.ofNat n) = false := by
    intro n hn
    have hbyte : (UInt8.ofNat n).toNat = n := UInt8.toNat_ofNat_of_lt' (show n < 256 by omega)
    simp only [isInnerByte, UInt8.le_iff_toNat_le, UInt8.lt_iff_toNat_lt, hbyte]
    rcases hn with hn | hn
    · simp [Nat.not_le_of_lt hn]
    · simp [Nat.not_lt_of_le hn.1]
  have hinner : ∀ n : Nat, isInnerByte (UInt8.ofNat (n % 64 + 128)) = true := by
    intro n
    have hbyte : (UInt8.ofNat (n % 64 + 128)).toNat = n % 64 + 128 :=
      UInt8.toNat_ofNat_of_lt' (show n % 64 + 128 < 256 by omega)
    simp only [isInnerByte, UInt8.le_iff_toNat_le, UInt8.lt_iff_toNat_lt, hbyte,
      Bool.and_eq_true, decide_eq_true_eq]
    exact ⟨Nat.le_add_left _ _, Nat.add_lt_add_right (Nat.mod_lt n (by decide)) 128⟩
  unfold String.utf8EncodeChar
  simp only
  split
  · exact ⟨_, [], rfl, houter _ (by omega), by simp⟩
  · split
    · refine ⟨_, _, rfl, houter _ (by omega), ?_⟩
      simp only [List.forall_mem_cons, hinner, List.not_mem_nil, false_imp_iff, implies_true,
        and_self]
    · split <;> refine ⟨_, _, rfl, houter _ (by omega), ?_⟩ <;>
        simp only [List.forall_mem_cons, hinner, List.not_mem_nil, false_imp_iff, implies_true,
          and_self]

/-- Between two characters there is an edge. -/
theorem isEdge_of_isBoundary {t : Text} {n : Nat} (h : t.IsBoundary n) :
    isEdge t.bytes n = true := by
  obtain ⟨before, after, rfl, rfl⟩ := h
  cases after with
  | nil => simp [isEdge, Text.length_bytes]
  | cons c after =>
    obtain ⟨b, bs, hencode, hfirst, -⟩ := exists_utf8EncodeChar c
    have hget : (before ++ c :: after).bytes[before.byteSize]? = some b := by
      rw [Text.bytes_append, Text.bytes_cons, hencode, ← Text.length_bytes,
        List.getElem?_append_right (Nat.le_refl _), Nat.sub_self]
      rfl
    simp [isEdge, hget, hfirst]

/-- An edge is between two characters. -/
theorem isBoundary_of_isEdge {t : Text} {n : Nat} (h : isEdge t.bytes n = true) :
    t.IsBoundary n := by
  simp only [isEdge, Bool.or_eq_true, decide_eq_true_eq, Text.length_bytes] at h
  rcases h with (rfl | rfl) | h
  · exact ⟨[], t, rfl, rfl⟩
  · exact ⟨t, [], (List.append_nil t).symm, rfl⟩
  · induction t generalizing n with
    | nil => simp [Text.bytes] at h
    | cons c t ih =>
      obtain ⟨b, bs, hencode, -, hinner⟩ := exists_utf8EncodeChar c
      have hsize : c.utf8Size = bs.length + 1 := by
        rw [← String.length_utf8EncodeChar, hencode, List.length_cons]
      rw [Text.bytes_cons] at h
      by_cases hn : c.utf8Size ≤ n
      · rw [List.getElem?_append_right (by rw [String.length_utf8EncodeChar]; exact hn),
          String.length_utf8EncodeChar] at h
        obtain ⟨before, after, rfl, hbefore⟩ := ih h
        refine ⟨c :: before, after, rfl, ?_⟩
        rw [Text.byteSize_cons, hbefore]
        omega
      · cases n with
        | zero => exact ⟨[], c :: t, rfl, rfl⟩
        | succ n =>
          -- this byte goes on with the first character
          have hlt : n < bs.length := by omega
          rw [hencode, List.cons_append, List.getElem?_cons_succ, List.getElem?_append_left hlt,
            List.getElem?_eq_getElem hlt] at h
          simp [hinner _ (List.getElem_mem hlt)] at h

/-- Stepping back by bytes leads to the last boundary. -/
theorem stepBack_eq (t : Text) (n : Nat) : stepBack t.bytes n = t.floorBoundary n := by
  induction n with
  | zero => exact (Nat.le_zero.1 (Text.floorBoundary_le t 0)).symm
  | succ n ih =>
    rw [stepBack]
    split
    · rename_i hedge
      exact ((Text.isBoundary_iff_floorBoundary t (n + 1)).1 (isBoundary_of_isEdge hedge)).symm
    · rename_i hedge
      have hbelow := Text.isBoundary_floorBoundary t (n + 1)
      have hle := Text.floorBoundary_le t (n + 1)
      have hne : t.floorBoundary (n + 1) ≠ n + 1 := by
        intro heq
        rw [heq] at hbelow
        exact hedge (isEdge_of_isBoundary hbelow)
      rw [ih]
      apply Nat.le_antisymm
      · exact (Text.isBoundary_floorBoundary t n).le_floorBoundary
          (Nat.le_trans (Text.floorBoundary_le t n) (Nat.le_succ n))
      · exact hbelow.le_floorBoundary (by omega)

/-- A text is the open line at its end and what stands before this line. -/
theorem exists_openLine (t : Text) : ∃ before line : Text, t = before ++ line ∧ '\n' ∉ line ∧
    (before = [] ∨ ∃ above, before = above ++ ['\n']) := by
  induction t using Text.line_induction with
  | last l hl => exact ⟨[], l, rfl, hl, Or.inl rfl⟩
  | line l t hl ih =>
    obtain ⟨before, line, rfl, hline, hbefore⟩ := ih
    refine ⟨l ++ '\n' :: before, line, by simp, hline, Or.inr ?_⟩
    rcases hbefore with rfl | ⟨above, rfl⟩
    · exact ⟨l, rfl⟩
    · exact ⟨l ++ '\n' :: above, by simp⟩

/-- What follows the last of some separators in a list. -/
theorem takeWhile_reverse_append {α : Type} {q : α → Bool} {before line : List α}
    (hline : ∀ a ∈ line, q a = true)
    (hbefore : before = [] ∨ ∃ above a, before = above ++ [a] ∧ q a = false) :
    (before ++ line).reverse.takeWhile q = line.reverse := by
  rw [List.reverse_append,
    List.takeWhile_append_of_pos fun a ha => hline a (List.mem_reverse.1 ha)]
  rcases hbefore with rfl | ⟨above, a, rfl, ha⟩
  · simp
  · simp [ha]

/-- Going back from an offset and looking backwards for a line feed finds the position, and every
cut on the way lies between characters. -/
theorem positionAt?_eq (t : Text) (n : Nat) : positionAt? t n = some (t.positionAt n) := by
  have hto : t.sliceTo? (t.floorBoundary n) = some (t.takeBytes n) := by
    have hcut := Text.sliceTo?_append (t.takeBytes n) (t.dropBytes n)
    rwa [Text.takeBytes_append_dropBytes] at hcut
  obtain ⟨above, line, hsplit, hline, habove⟩ := exists_openLine (t.takeBytes n)
  have hchars : (above ++ line).reverse.takeWhile (· ≠ '\n') = line.reverse := by
    refine takeWhile_reverse_append (q := fun c => decide (c ≠ '\n')) ?_ ?_
    · intro c hc
      rw [decide_eq_true_eq]
      rintro rfl
      exact hline hc
    · rcases habove with rfl | ⟨rest, rfl⟩
      · exact Or.inl rfl
      · exact Or.inr ⟨rest, '\n', rfl, rfl⟩
  have hbytes : (above ++ line).bytes.reverse.takeWhile (· ≠ lineFeed) = line.bytes.reverse := by
    rw [Text.bytes_append]
    refine takeWhile_reverse_append (q := fun b => decide (b ≠ lineFeed)) ?_ ?_
    · intro b hb
      rw [decide_eq_true_eq]
      rintro rfl
      exact hline ((Text.ascii_mem_bytes_iff (c := '\n') (by decide)).1 hb)
    · rcases habove with rfl | ⟨rest, rfl⟩
      · exact Or.inl rfl
      · exact Or.inr ⟨rest.bytes, lineFeed, Text.bytes_append _ _, rfl⟩
  have hstart : lastLineStart (above ++ line).bytes = above.byteSize := by
    rw [lastLineStart, hbytes, List.length_reverse, Text.length_bytes, Text.length_bytes,
      Text.byteSize_append, Nat.add_sub_cancel]
  simp only [positionAt?, stepBack_eq, Text.floorBoundary_min, hto, Option.bind_eq_bind,
    Option.bind_some, Text.positionAt, hsplit, hstart, Text.sliceFrom?_append, hchars,
    List.length_reverse]
  rfl

end PlaceScan

namespace Text

/-- Offsets between the characters of a text correspond one to one to the positions that the text
has.  Every other offset, beyond the text or inside a character, has the position of the last place
between characters that is not beyond it.  Running offsets give the same. -/
theorem positionAt_inverse (t : Text) :
    (∀ n, t.IsBoundary n → n ≤ t.byteSize ∧ t.offsetOf (t.positionAt n) = .ok n) ∧
    (∀ p n, t.offsetOf p = .ok n →
      t.IsBoundary n ∧ n ≤ t.byteSize ∧ t.positionAt n = p) ∧
    (∀ n, ∃ m, t.IsBoundary m ∧ m ≤ min n t.byteSize ∧
      (∀ k, t.IsBoundary k → k ≤ min n t.byteSize → k ≤ m) ∧
      t.positionAt n = t.positionAt m) ∧
    (∀ p, PlaceScan.offsetOf t p = t.offsetOf p) ∧
    (∀ n, PlaceScan.positionAt? t n = some (t.positionAt n)) := by
  refine ⟨?_, ?_, ?_, PlaceScan.offsetOf_eq t, PlaceScan.positionAt?_eq t⟩
  · intro n hn
    exact ⟨hn.le_byteSize, hn.offsetOf_positionAt⟩
  · intro p n h
    obtain ⟨before, after, rfl, rfl, rfl⟩ := offsetOf_eq_ok_iff.1 h
    have hn : (before ++ after).IsBoundary before.byteSize := ⟨before, after, rfl, rfl⟩
    exact ⟨hn, hn.le_byteSize, positionAt_append before after⟩
  · intro n
    have hbelow := isBoundary_floorBoundary t n
    refine ⟨t.floorBoundary n, hbelow,
      Nat.le_min.2 ⟨floorBoundary_le t n, hbelow.le_byteSize⟩, ?_, ?_⟩
    · intro k hk hkn
      exact hk.le_floorBoundary (Nat.le_trans hkn (Nat.min_le_left _ _))
    · rw [positionAt, positionAt, takeBytes_floorBoundary]

/-- An offset behind a line feed, and one inside a character. -/
example : positionAt "é\nab".toList 3 = ⟨2, 1⟩ ∧ positionAt "é\nab".toList 1 = ⟨1, 1⟩ := by
  decide +kernel

end Text

end ScriptWorkbench
