import ScriptWorkbench.Text.Literal

/-!
# Reading quoted literals

A character is written into a literal by a short escape, by its code, or as it is
(`escapeChar_cases`), and each of the three reads back as the character whatever stands behind it
(`readLiteral_escapeChar`).  So a literal reads back as its text (`unquote?_quoted`).  It has no
line feed in it (`lineFeed_notMem_quoted`), which is what lets literals stand on lines.
-/

set_option autoImplicit false

namespace ScriptWorkbench.Text

/-! ## Codes -/

/-- A hexadecimal digit is read back. -/
theorem hexValue?_digitChar : ∀ d < 16, hexValue? (Nat.digitChar d) = some d := by
  decide

/-- The digits of a code add up to the code. -/
theorem readLiteral_toDigits (n : Nat) (rest : Text) :
    readLiteral (.code 0) (Nat.toDigits 16 n ++ rest) = readLiteral (.code n) rest := by
  have hdigit : ∀ m d : Nat, d < 16 → ∀ t : Text,
      readLiteral (.code m) (Nat.digitChar d :: t) = readLiteral (.code (16 * m + d)) t := by
    intro m d hd t
    have hclose : Nat.digitChar d ≠ '\x7d' := by simp
    rw [readLiteral, if_neg hclose, hexValue?_digitChar d hd]
  -- the last digit is read behind the others, so the induction is for any text behind them
  induction n using Nat.strongRecOn generalizing rest with
  | ind n ih =>
    rw [Nat.toDigits_eq_if (by decide)]
    split
    · rename_i hsmall
      rw [List.singleton_append, hdigit 0 n hsmall, Nat.mul_zero, Nat.zero_add]
    · rename_i hbig
      have hshorter : n / 16 < n := Nat.div_lt_self (by omega) (by decide)
      rw [List.append_assoc, List.singleton_append, ih _ hshorter,
        hdigit _ _ (Nat.mod_lt n (by decide)), Nat.div_add_mod]

/-- A number in hexadecimal digits has no line feed. -/
theorem lineFeed_notMem_toDigits (n : Nat) : '\n' ∉ Nat.toDigits 16 n := by
  induction n using Nat.strongRecOn with
  | ind n ih =>
    rw [Nat.toDigits_eq_if (by decide)]
    split
    · simp
    · rename_i hbig
      have hshorter : n / 16 < n := Nat.div_lt_self (by omega) (by decide)
      simp [ih _ hshorter]

/-! ## Characters -/

/-- A character is written by a short escape, by its code, or as it is. -/
theorem escapeChar_cases (c : Char) :
    (∃ e, shortEscape? e = some c ∧ escapeChar c = ['\x5c', e]) ∨
    escapeChar c = ['\x5c', 'u', '\x7b'] ++ Nat.toDigits 16 c.toNat ++ ['\x7d'] ∨
    (escapeChar c = [c] ∧ c ≠ '\n' ∧ c ≠ '\x22' ∧ c ≠ '\x5c') := by
  by_cases hshort : c = '\x00' ∨ c = '\t' ∨ c = '\n' ∨ c = '\r' ∨ c = '\x22' ∨ c = '\x5c'
  · left
    rcases hshort with rfl | rfl | rfl | rfl | rfl | rfl
    · exact ⟨'0', by decide⟩
    · exact ⟨'t', by decide⟩
    · exact ⟨'n', by decide⟩
    · exact ⟨'r', by decide⟩
    · exact ⟨'\x22', by decide⟩
    · exact ⟨'\x5c', by decide⟩
  · right
    simp only [not_or] at hshort
    obtain ⟨hnul, htab, hfeed, hreturn, hquote, hslash⟩ := hshort
    rw [escapeChar, if_neg hnul, if_neg htab, if_neg hfeed, if_neg hreturn, if_neg hquote,
      if_neg hslash]
    cases isHidden c with
    | true => exact Or.inl rfl
    | false => exact Or.inr ⟨rfl, hfeed, hquote, hslash⟩

/-- A character that was written into a literal reads back, whatever stands behind it. -/
theorem readLiteral_escapeChar (c : Char) (rest : Text) :
    readLiteral .plain (escapeChar c ++ rest) = (readLiteral .plain rest).map (c :: ·) := by
  have hescape : ∀ t : Text, readLiteral .plain ('\x5c' :: t) = readLiteral .escape t := by
    intro t
    simp [readLiteral]
  rcases escapeChar_cases c with ⟨e, he, hc⟩ | hc | ⟨hc, -, hquote, hslash⟩
  · have hunicode : e ≠ 'u' := by
      rintro rfl
      simp [shortEscape?] at he
    rw [hc]
    simp only [List.cons_append, List.nil_append, hescape]
    rw [readLiteral, if_neg hunicode, he]
  · rw [hc]
    simp only [List.cons_append, List.nil_append, List.append_assoc, hescape]
    rw [readLiteral, if_pos rfl, readLiteral, if_pos rfl, readLiteral_toDigits, readLiteral,
      if_pos rfl, Char.ofNat_toNat]
  · rw [hc, List.singleton_append, readLiteral, if_neg hquote, if_neg hslash]
    simp [hquote]

/-- A character is written without a line feed. -/
theorem lineFeed_notMem_escapeChar (c : Char) : '\n' ∉ escapeChar c := by
  rcases escapeChar_cases c with ⟨e, he, hc⟩ | hc | ⟨hc, hfeed, -, -⟩
  · have hne : '\n' ≠ e := by
      rintro rfl
      simp [shortEscape?] at he
    simp [hc, hne]
  · simp [hc, lineFeed_notMem_toDigits]
  · simp [hc, Ne.symm hfeed]

/-! ## Texts -/

/-- A quoted literal reads back as its text. -/
theorem unquote?_quoted (t : Text) : unquote? t.quoted = some t := by
  have hread : readLiteral .plain (t.flatMap escapeChar ++ ['\x22']) = some t := by
    induction t with
    | nil => rfl
    | cons c t ih =>
      rw [List.flatMap_cons, List.append_assoc, readLiteral_escapeChar, ih]
      rfl
  exact hread

/-- A quoted literal stands on one line. -/
theorem lineFeed_notMem_quoted (t : Text) : '\n' ∉ t.quoted := by
  have hinside : '\n' ∉ t.flatMap escapeChar := by
    rw [List.mem_flatMap]
    rintro ⟨c, -, hc⟩
    exact lineFeed_notMem_escapeChar c hc
  simp [quoted, hinside]

end ScriptWorkbench.Text
