import ScriptWorkbench.Json.Value

/-!
# Reading strings

What stands between the quotes of a string is read character by character, however each of them is
spelled (`contents_append`).  So a spelled string reads as its text (`contents_of_spells`).
-/

set_option autoImplicit false

namespace ScriptWorkbench.Json

/-- What comes after an opening quote reads as: the text of the string or what is wrong with it, and
what follows the closing quote. -/
def contents (t : Text) : Except Fault Text × Except Fault Text :=
  (joinPieces (pieces t).2 (pieces t).1, (pieces t).2)

/-! ## One character -/

/-- A quote ends a string. -/
theorem pieces_quote (t : Text) : pieces ('\x22' :: t) = ([], .ok t) := by
  simp [pieces]

/-- A character that is no quote, no backslash and no control character stands for itself. -/
theorem pieces_plain {c : Char} (hquote : c ≠ '\x22') (hescape : c ≠ '\x5c')
    (hcontrol : 0x20 ≤ c.toNat) (t : Text) :
    pieces (c :: t) = (.char c :: (pieces t).1, (pieces t).2) := by
  have hcontrol' : ¬ c.toNat < 0x20 := by omega
  simp [pieces, hquote, hescape, hcontrol']

/-- A short escape stands for its character. -/
theorem pieces_short {c e : Char} (h : shortEscape? e = some c) (t : Text) :
    pieces ('\x5c' :: e :: t) = (.char c :: (pieces t).1, (pieces t).2) := by
  have he : e ≠ 'u' := by
    rintro rfl
    simp [shortEscape?] at h
  simp [pieces, h, he]

/-- Four hexadecimal digits behind their escape stand for their unit. -/
theorem pieces_unit {n : Nat} {u : Text} (h : SpellsUnit n u) (t : Text) :
    pieces (u ++ t) = (.unit n :: (pieces t).1, (pieces t).2) := by
  cases h with
  | mk h => simp [pieces, h]

/-- The code of a character is no half of two units. -/
theorem not_half_toNat (c : Char) : isLow c.toNat = false ∧ isHigh c.toNat = false := by
  have hvalid : c.toNat.isValidChar := c.valid
  simp only [Nat.isValidChar] at hvalid
  simp only [isLow, isHigh, Bool.and_eq_false_iff, decide_eq_false_iff_not]
  omega

/-- A high surrogate is no low one. -/
theorem isLow_of_isHigh {n : Nat} (h : isHigh n = true) : isLow n = false := by
  simp only [isHigh, Bool.and_eq_true, decide_eq_true_eq] at h
  simp only [isLow, Bool.and_eq_false_iff, decide_eq_false_iff_not]
  omega

/-- A unit that is a character is that character. -/
theorem joinPieces_unit {α : Type} (ending : Except Fault α) (c : Char) (ps : List Piece) :
    joinPieces ending (.unit c.toNat :: ps) = (joinPieces ending ps).map (c :: ·) := by
  obtain ⟨hlow, hhigh⟩ := not_half_toNat c
  cases ps <;> simp [joinPieces.eq_def ending (.unit _ :: _), hlow, hhigh]

/-- A high surrogate and a low one make one character. -/
theorem joinPieces_pair {α : Type} (ending : Except Fault α) {high low : Nat}
    (hhigh : isHigh high = true) (hlow : isLow low = true) (ps : List Piece) :
    joinPieces ending (.unit high :: .unit low :: ps) =
      (joinPieces ending ps).map (joinUnits high low :: ·) := by
  simp [joinPieces.eq_def ending (.unit high :: _), isLow_of_isHigh hhigh, hhigh, hlow]

/-- A spelled character in front of a string comes in front of its characters. -/
theorem contents_append {c : Char} {u : Text} (h : SpellsChar c u) (t : Text) :
    contents (u ++ t) = ((contents t).1.map (c :: ·), (contents t).2) := by
  cases h with
  | plain hquote hescape hcontrol =>
    simp [contents, pieces_plain hquote hescape hcontrol, joinPieces]
  | short h => simp [contents, pieces_short h, joinPieces]
  | unit h => simp [contents, pieces_unit h, joinPieces_unit]
  | pair hhigh hlow hu hv hc =>
    simp [contents, pieces_unit hu, pieces_unit hv, joinPieces_pair _ hhigh hlow, hc]

/-- The characters of a string are read up to its quote, however they are spelled. -/
theorem contents_of_spells {t u : Text} (h : SpellsChars t u) (rest : Text) :
    contents (u ++ '\x22' :: rest) = (.ok t, .ok rest) := by
  induction h with
  | nil => simp [contents, pieces_quote, joinPieces, Except.map]
  | cons hc ht ih =>
    rw [List.append_assoc, contents_append hc, ih]
    rfl

/-- A spelled string is one mark, whether it is kept or skipped. -/
theorem stringMark_of_spells {t u : Text} (h : SpellsChars t u) (rest : Text) :
    stringMark (u ++ '\x22' :: rest) = (.string ⟨.ok t, .ok ()⟩, rest) := by
  have hcontents := contents_of_spells h rest
  simp only [contents, Prod.mk.injEq] at hcontents
  obtain ⟨htext, hrest⟩ := hcontents
  rw [hrest] at htext
  simp only [stringMark, hrest, htext]

/-! ## What reading uses up -/

/-- Reading a string takes its quote at least. -/
theorem length_of_pieces {t rest : Text} (h : (pieces t).2 = .ok rest) :
    rest.length < t.length := by
  fun_induction pieces t <;> simp_all <;> omega

end ScriptWorkbench.Json
