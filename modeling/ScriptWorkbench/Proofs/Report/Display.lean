import ScriptWorkbench.Proofs.Report.Leftmost
import ScriptWorkbench.Report.Entry

/-!
# Findings as they are shown

A finding keeps its line and its column as numbers, so its display writes them without leading
zeros, however they were written (`Text.decimal_digitsValue`).  The display of a line is therefore
the line itself exactly if the numbers of its leftmost finding have no leading zeros
(`ErrorLine.display_ofText_eq_iff`), and `007` comes back as `7` (`ErrorLine.display_padded_ne`).
-/

set_option autoImplicit false

namespace ScriptWorkbench

namespace Text

/-! ## Numbers as they are written -/

/-- A zero leads further digits. -/
def IsPadded (digits : Text) : Prop :=
  digits.head? = some '0' ∧ 1 < digits.length

/-- Digits without the zeros that lead them.  The last digit stays. -/
def unpadded : Text → Text
  | [] => []
  | [d] => [d]
  | c :: d :: digits => if c = '0' then unpadded (d :: digits) else c :: d :: digits

/-- Digits without their leading zeros are the end of the digits. -/
theorem isSuffix_unpadded (digits : Text) : unpadded digits <:+ digits := by
  fun_induction unpadded digits with
  | case1 => exact List.suffix_refl _
  | case2 d => exact List.suffix_refl _
  | case3 d digits ih => exact ih.trans (List.suffix_cons _ _)
  | case4 c d digits _ => exact List.suffix_refl _

/-- Digits keep all their zeros exactly if none is leading. -/
theorem unpadded_eq_self_iff (digits : Text) : unpadded digits = digits ↔ ¬ IsPadded digits := by
  fun_cases unpadded digits with
  | case1 => simp [IsPadded]
  | case2 d => simp [IsPadded]
  | case3 d digits =>
    have hpadded : IsPadded ('0' :: d :: digits) := ⟨rfl, by simp⟩
    have hlength := (isSuffix_unpadded (d :: digits)).length_le
    constructor
    · intro h
      rw [h, List.length_cons] at hlength
      omega
    · intro h
      exact absurd hpadded h
  | case4 c d digits hc => simp [IsPadded, hc]

/-- A digit is the character of its value. -/
theorem digitChar_of_isDigit {c : Char} (h : c.isDigit = true) :
    c.toNat - '0'.toNat < 10 ∧ Nat.digitChar (c.toNat - '0'.toNat) = c := by
  rw [Char.isDigit_iff_toNat] at h
  have hzero : '0'.toNat = 48 := rfl
  have hnine : '9'.toNat = 57 := rfl
  have hlt : c.toNat - '0'.toNat < 10 := by omega
  refine ⟨hlt, Char.toNat_inj.1 ?_⟩
  rw [Nat.toNat_digitChar_of_lt_ten hlt]
  omega

/-- Digits behind a number that is not zero are those of a greater number. -/
theorem decimal_append {n : Nat} (hn : 0 < n) {digits : Text}
    (h : ∀ c ∈ digits, c.isDigit = true) :
    decimal n ++ digits = decimal (Nat.ofDigitChars 10 digits n) := by
  induction digits generalizing n with
  | nil => simp [Nat.ofDigitChars]
  | cons c digits ih =>
    obtain ⟨hlt, hchar⟩ := digitChar_of_isDigit (h c List.mem_cons_self)
    have hone : decimal n ++ [c] = decimal (10 * n + (c.toNat - '0'.toNat)) := by
      rw [decimal, decimal, ← Nat.toDigits_append_toDigits (by decide) hn hlt,
        Nat.toDigits_of_lt_base hlt, hchar]
    calc
      decimal n ++ c :: digits = decimal n ++ [c] ++ digits := by simp
      _ = decimal (10 * n + (c.toNat - '0'.toNat)) ++ digits := by rw [hone]
      _ = decimal (Nat.ofDigitChars 10 digits (10 * n + (c.toNat - '0'.toNat))) :=
        ih (by omega) fun d hd => h d (List.mem_cons_of_mem c hd)

/-- The value of a row of digits is written as the row without leading zeros. -/
theorem decimal_digitsValue {digits : Text} (hne : digits ≠ [])
    (h : ∀ c ∈ digits, c.isDigit = true) : decimal (digitsValue digits) = unpadded digits := by
  fun_induction unpadded digits with
  | case1 => exact absurd rfl hne
  | case2 d =>
    obtain ⟨hlt, hchar⟩ := digitChar_of_isDigit (h d List.mem_cons_self)
    have hvalue : digitsValue [d] = d.toNat - '0'.toNat := by
      simp [digitsValue, Nat.ofDigitChars]
    rw [hvalue, decimal, Nat.toDigits_of_lt_base hlt, hchar]
  | case3 d digits ih =>
    -- a zero in front adds nothing to the value
    exact ih (List.cons_ne_nil d digits) fun c hc => h c (List.mem_cons_of_mem _ hc)
  | case4 c d digits hc =>
    obtain ⟨hlt, hchar⟩ := digitChar_of_isDigit (h c List.mem_cons_self)
    have hpos : 0 < c.toNat - '0'.toNat := by
      rw [Nat.pos_iff_ne_zero]
      intro hzero
      rw [hzero] at hchar
      exact hc hchar.symm
    have hfirst : decimal (c.toNat - '0'.toNat) = [c] := by
      rw [decimal, Nat.toDigits_of_lt_base hlt, hchar]
    have hrest := decimal_append hpos fun e he => h e (List.mem_cons_of_mem c he)
    rw [hfirst] at hrest
    simpa [digitsValue, Nat.ofDigitChars] using hrest.symm

end Text

namespace Finding.Parts

/-! ## The parts of a line as they are shown -/

/-- The parts with both numbers written without leading zeros. -/
def unpadded (p : Parts) : Parts :=
  { p with
    lineDigits := Text.unpadded p.lineDigits
    columnDigits := Text.unpadded p.columnDigits }

/-- A finding is shown as the line that it was found on, but for leading zeros. -/
theorem display_finding {p : Parts} (hp : p.IsValid) : p.finding.display = p.unpadded.line := by
  have hline := Text.decimal_digitsValue hp.lineDigits.1 hp.lineDigits.2.1
  have hcolumn := Text.decimal_digitsValue hp.columnDigits.1 hp.columnDigits.2.1
  simp [display, location, finding, hline, hcolumn, unpadded, line, marker]

/-- No leading zero is lost exactly if there was none. -/
theorem line_unpadded_eq_iff (p : Parts) :
    p.unpadded.line = p.line ↔ ¬ Text.IsPadded p.lineDigits ∧ ¬ Text.IsPadded p.columnDigits := by
  rw [← Text.unpadded_eq_self_iff, ← Text.unpadded_eq_self_iff]
  constructor
  · intro h
    have hlength := congrArg List.length h
    have hline := Text.isSuffix_unpadded p.lineDigits
    have hcolumn := Text.isSuffix_unpadded p.columnDigits
    have hline_le := hline.length_le
    have hcolumn_le := hcolumn.length_le
    simp only [line, unpadded, List.length_append, List.length_cons] at hlength
    exact ⟨hline.eq_of_length (by omega), hcolumn.eq_of_length (by omega)⟩
  · rintro ⟨hline, hcolumn⟩
    rw [unpadded, hline, hcolumn]

end Finding.Parts

namespace ErrorLine

open Finding

/-- A line with leftmost parts is recognised as their finding. -/
theorem ofText_eq_of_isLeftmost {p : Parts} {line : Text} (hp : p.IsLeftmost line) :
    ofText line = .finding p.finding := by
  have hfirst : first? false line = some p.finding := by
    rw [first?_eq_anywhere?, anywhere?_eq_some_iff]
    exact ⟨p, hp, rfl⟩
  rw [ofText, hfirst]

/-- A line without parts is plain. -/
theorem ofText_eq_plain {line : Text} (h : ∀ p : Parts, ¬ p.IsLeftmost line) :
    ofText line = .plain line := by
  have hfirst : first? false line = none := by
    rw [first?_eq_anywhere?, anywhere?_eq_none_iff]
    rintro ⟨p, hp, hline⟩
    obtain ⟨q, hq⟩ := Parts.exists_isLeftmost hp hline
    exact h q hq
  rw [ofText, hfirst]

/-- A line is shown with the numbers of its leftmost finding written without leading zeros, and a
line without a finding is shown as it is.  So a line comes back unchanged exactly if neither of
these numbers has leading zeros.  Entries show lines of standard error like this and lines of
standard output as they came. -/
theorem display_ofText_eq_iff (line : Text) :
    (∀ p : Parts, p.IsLeftmost line → (ofText line).display = p.unpadded.line) ∧
    ((ofText line).display = line ↔
      ∀ p : Parts, p.IsLeftmost line →
        ¬ Text.IsPadded p.lineDigits ∧ ¬ Text.IsPadded p.columnDigits) ∧
    (Entry.ofLine .stderr line).display = (ofText line).display ∧
    (Entry.ofLine .stdout line).display = line := by
  have hdisplay : ∀ p : Parts, p.IsLeftmost line → (ofText line).display = p.unpadded.line := by
    intro p hp
    rw [ofText_eq_of_isLeftmost hp]
    exact Parts.display_finding hp.valid
  refine ⟨hdisplay, ?_, rfl, rfl⟩
  constructor
  · intro h p hp
    rw [← Parts.line_unpadded_eq_iff, ← hdisplay p hp, h, hp.line]
  · intro h
    by_cases hfinding : ∃ p : Parts, p.IsLeftmost line
    · obtain ⟨p, hp⟩ := hfinding
      rw [hdisplay p hp, (Parts.line_unpadded_eq_iff p).2 (h p hp), hp.line]
    · rw [ofText_eq_plain (not_exists.1 hfinding)]
      rfl

/-- The zeros before the seven are lost. -/
theorem display_padded_ne :
    (ofText "a.kts:007:1:".toList).display = "a.kts:7:1:".toList ∧
    (ofText "a.kts:007:1:".toList).display ≠ "a.kts:007:1:".toList ∧
    (Entry.ofLine .stderr "a.kts:007:1:".toList).display ≠ "a.kts:007:1:".toList := by
  decide +kernel

end ErrorLine

end ScriptWorkbench
