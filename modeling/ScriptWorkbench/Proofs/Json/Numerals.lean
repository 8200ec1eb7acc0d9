import ScriptWorkbench.Json.Value

/-!
# Reading numbers

A number that is spelled as the grammar says is read whole and with its parts, whatever follows it
that no number goes on with (`Numeral.read_append`).  Reading a number always uses up some of the
text (`Numeral.length_of_read`).
-/

set_option autoImplicit false

namespace ScriptWorkbench.Json

/-- No digit stands at the front. -/
def NoDigit (rest : Text) : Prop :=
  ∀ c, rest.head? = some c → c.isDigit = false

/-- The text does not begin with anything that a number could go on with. -/
def EndsNumber (rest : Text) : Prop :=
  ∀ c, rest.head? = some c → c.isDigit = false ∧ c ≠ '.' ∧ c ≠ 'e' ∧ c ≠ 'E'

/-- What may follow a number is no digit. -/
theorem EndsNumber.noDigit {rest : Text} (h : EndsNumber rest) : NoDigit rest :=
  fun c hc => (h c hc).1

/-- A number may stand at the end of a text. -/
theorem endsNumber_nil : EndsNumber [] := by
  simp [EndsNumber]

/-- Any character may follow a number but a digit, a point and the letter of an exponent. -/
theorem endsNumber_cons {c : Char} {t : Text} (hdigit : c.isDigit = false)
    (hletter : c ≠ '.' ∧ c ≠ 'e' ∧ c ≠ 'E') : EndsNumber (c :: t) := by
  intro d hd
  obtain rfl : c = d := Option.some.inj hd
  exact ⟨hdigit, hletter⟩

/-! ## The parts of a number -/

/-- Digits are read up to the first character that is none. -/
theorem digits_append {u rest : Text} (hu : IsDigits u) (hrest : NoDigit rest) :
    digits (u ++ rest) = .ok (u, rest) := by
  obtain ⟨hne, hdigit⟩ := hu
  have htake : rest.takeWhile Char.isDigit = [] := by
    cases rest with
    | nil => rfl
    | cons c t => simp [hrest c rfl]
  have hdrop : rest.dropWhile Char.isDigit = rest := by
    cases rest with
    | nil => rfl
    | cons c t => simp [hrest c rfl]
  cases u with
  | nil => exact absurd rfl hne
  | cons c u =>
    have hc : c.isDigit = true := hdigit c List.mem_cons_self
    simp only [List.cons_append, digits, hc, ↓reduceIte]
    rw [← List.cons_append, List.takeWhile_append_of_pos hdigit,
      List.dropWhile_append_of_pos hdigit, htake, hdrop, List.append_nil]

/-- The whole part is read up to the first character that is no digit. -/
theorem wholeDigits_append {u rest : Text} (hu : IsWhole u) (hrest : NoDigit rest) :
    wholeDigits (u ++ rest) = .ok (u, rest) := by
  obtain ⟨hdigits, hzero⟩ := hu
  simp only [wholeDigits, digits_append hdigits hrest]
  split
  next heq =>
    obtain ⟨rfl, -⟩ := Prod.mk.inj (Except.ok.inj heq)
    simp at hzero
  next => rfl

/-- A fraction is read with its point, or there is none if no point follows. -/
theorem fractionDigits_append {fraction : Option Text} {point rest : Text}
    (h : SpellsFraction fraction point) (hrest : NoDigit rest) (hpoint : rest.head? ≠ some '.') :
    fractionDigits (point ++ rest) = .ok (fraction, rest) := by
  cases h with
  | none =>
    cases rest with
    | nil => rfl
    | cons c t =>
      have hc : c ≠ '.' := fun h => hpoint (congrArg some h)
      simp [fractionDigits, hc]
  | some hdigits => simp [fractionDigits, digits_append hdigits hrest, Except.map]

/-- The sign of an exponent is read, or the digits follow at once. -/
theorem exponentSign_append {negative : Bool} {sign u : Text} (h : SpellsSign negative sign)
    (hu : IsDigits u) (rest : Text) :
    exponentSign (sign ++ (u ++ rest)) = (negative, u ++ rest) := by
  cases h with
  | plus => rfl
  | minus => rfl
  | bare =>
    obtain ⟨hne, hdigit⟩ := hu
    cases u with
    | nil => exact absurd rfl hne
    | cons c u =>
      have hc : c.isDigit = true := hdigit c List.mem_cons_self
      have hplus : c ≠ '+' := by rintro rfl; simp at hc
      have hminus : c ≠ '-' := by rintro rfl; simp at hc
      simp [exponentSign, hplus, hminus]

/-- An exponent is read with its letter and its sign, or there is none. -/
theorem exponentDigits_append {exponent : Option (Bool × Text)} {power rest : Text}
    (h : SpellsExponent exponent power) (hrest : EndsNumber rest) :
    exponentDigits (power ++ rest) = .ok (exponent, rest) := by
  cases h with
  | none =>
    cases rest with
    | nil => rfl
    | cons c t =>
      obtain ⟨-, -, hlower, hupper⟩ := hrest c rfl
      simp [exponentDigits, hlower, hupper]
  | some hletter hsign hdigits =>
    simp [exponentDigits, hletter, exponentSign_append hsign hdigits,
      digits_append hdigits hrest.noDigit, Except.map]

/-- What comes after the point or the exponent of a number does not go on with its digits. -/
theorem noDigit_power {exponent : Option (Bool × Text)} {power rest : Text}
    (h : SpellsExponent exponent power) (hrest : EndsNumber rest) :
    NoDigit (power ++ rest) ∧ (power ++ rest).head? ≠ some '.' := by
  cases h with
  | none => exact ⟨hrest.noDigit, fun hpoint => (hrest '.' hpoint).2.1 rfl⟩
  | some hletter =>
    rcases hletter with rfl | rfl <;> simp [NoDigit]

/-- A fraction does not begin with a digit, so the whole part ends before it. -/
theorem noDigit_point {fraction : Option Text} {point rest : Text}
    (h : SpellsFraction fraction point) (hrest : NoDigit rest) : NoDigit (point ++ rest) := by
  cases h with
  | none => exact hrest
  | some => simp [NoDigit]

/-! ## Numbers -/

/-- A number that is spelled at the front of a text is read as spelled, if what follows ends it. -/
theorem Numeral.read_append {x : Numeral} {u rest : Text} (h : SpellsNumeral x u)
    (hrest : EndsNumber rest) : Numeral.read (u ++ rest) = .ok (x, rest) := by
  cases h with
  | @mk negative whole fraction exponent point power hwhole hfraction hexponent =>
    obtain ⟨hpower, hpoint⟩ := noDigit_power hexponent hrest
    have hread := wholeDigits_append hwhole (noDigit_point hfraction hpower)
    cases negative with
    | true =>
      simp [Numeral.read, bind, Except.bind, pure, Except.pure, hread,
        fractionDigits_append hfraction hpower hpoint, exponentDigits_append hexponent hrest]
    | false =>
      obtain ⟨c, w, rfl⟩ := List.exists_cons_of_ne_nil hwhole.1.1
      have hminus : c ≠ '-' := by
        rintro rfl
        simpa using hwhole.1.2 '-' List.mem_cons_self
      rw [List.cons_append] at hread
      simp [Numeral.read, bind, Except.bind, pure, Except.pure, hminus, hread,
        fractionDigits_append hfraction hpower hpoint, exponentDigits_append hexponent hrest]

/-! ## What reading uses up -/

/-- Two readings in a row succeed exactly if the first does and the second does with its result. -/
theorem bind_eq_ok_iff {ε α β : Type} {x : Except ε α} {f : α → Except ε β} {b : β} :
    x >>= f = .ok b ↔ ∃ a, x = .ok a ∧ f a = .ok b := by
  cases x <;> simp [bind, Except.bind]

/-- A reading whose result is changed succeeds exactly if the reading does. -/
theorem map_eq_ok_iff {ε α β : Type} {x : Except ε α} {f : α → β} {b : β} :
    x.map f = .ok b ↔ ∃ a, x = .ok a ∧ f a = b := by
  cases x <;> simp [Except.map]

/-- Reading digits takes at least one character. -/
theorem length_of_digits {t u rest : Text} (h : digits t = .ok (u, rest)) :
    rest.length < t.length := by
  cases t with
  | nil => simp [digits] at h
  | cons c t =>
    simp only [digits] at h
    split at h
    next hc =>
      obtain ⟨-, rfl⟩ := Prod.mk.inj (Except.ok.inj h)
      have hle := (List.dropWhile_sublist (l := t) Char.isDigit).length_le
      rw [List.dropWhile_cons_of_pos hc, List.length_cons]
      omega
    next => simp at h

/-- Reading a whole part takes at least one character. -/
theorem length_of_wholeDigits {t u rest : Text} (h : wholeDigits t = .ok (u, rest)) :
    rest.length < t.length := by
  simp only [wholeDigits] at h
  split at h
  next => simp at h
  next => exact length_of_digits h

/-- Reading a fraction gives nothing back. -/
theorem length_of_fractionDigits {t rest : Text} {fraction : Option Text}
    (h : fractionDigits t = .ok (fraction, rest)) : rest.length ≤ t.length := by
  unfold fractionDigits at h
  split at h
  next t =>
    obtain ⟨⟨u, after⟩, hdigits, heq⟩ := map_eq_ok_iff.1 h
    obtain ⟨-, rfl⟩ := Prod.mk.inj heq
    have hlt := length_of_digits hdigits
    change after.length ≤ t.length + 1
    omega
  next =>
    obtain ⟨-, rfl⟩ := Prod.mk.inj (Except.ok.inj h)
    exact Nat.le_refl _

/-- Reading a sign gives nothing back. -/
theorem length_exponentSign (t : Text) : (exponentSign t).2.length ≤ t.length := by
  unfold exponentSign
  split <;> simp

/-- Reading an exponent gives nothing back. -/
theorem length_of_exponentDigits {t rest : Text} {exponent : Option (Bool × Text)}
    (h : exponentDigits t = .ok (exponent, rest)) : rest.length ≤ t.length := by
  cases t with
  | nil => simp_all [exponentDigits]
  | cons c t =>
    simp only [exponentDigits] at h
    split at h
    next =>
      obtain ⟨⟨u, after⟩, hdigits, heq⟩ := map_eq_ok_iff.1 h
      obtain ⟨-, rfl⟩ := Prod.mk.inj heq
      have hlt := length_of_digits hdigits
      have hsign := length_exponentSign t
      change after.length ≤ t.length + 1
      omega
    next =>
      obtain ⟨-, rfl⟩ := Prod.mk.inj (Except.ok.inj h)
      exact Nat.le_refl _

/-- Reading a number takes at least one character. -/
theorem Numeral.length_of_read {x : Numeral} {t rest : Text} (h : Numeral.read t = .ok (x, rest)) :
    rest.length < t.length := by
  simp only [Numeral.read] at h
  obtain ⟨⟨whole, t₁⟩, hwhole, h⟩ := bind_eq_ok_iff.1 h
  obtain ⟨⟨fraction, t₂⟩, hfraction, h⟩ := bind_eq_ok_iff.1 h
  obtain ⟨⟨exponent, t₃⟩, hexponent, h⟩ := bind_eq_ok_iff.1 h
  obtain ⟨-, rfl⟩ := Prod.mk.inj (Except.ok.inj h)
  have hwhole' := length_of_wholeDigits hwhole
  have hfraction' := length_of_fractionDigits hfraction
  have hexponent' := length_of_exponentDigits hexponent
  split at hwhole' <;> simp at * <;> omega

end ScriptWorkbench.Json
