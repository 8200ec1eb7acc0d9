import ScriptWorkbench.Proofs.Json.Numerals
import ScriptWorkbench.Proofs.Json.Strings

/-!
# The marks of a value

The marks of a document are the row of marks of its value (`marks_document`), whatever space it has
between its parts and however its strings are spelled.  A value is skipped by going past its row
(`skip_row`).
-/

set_option autoImplicit false

namespace ScriptWorkbench.Json

/-! ## One mark at a time -/

/-- Reading the letters of a word gives nothing back. -/
theorem length_of_letters {es t rest : Text} (h : letters es t = .ok rest) :
    rest.length ≤ t.length := by
  induction es generalizing t with
  | nil =>
    obtain rfl : t = rest := by simpa [letters] using h
    exact Nat.le_refl _
  | cons e es ih =>
    cases t with
    | nil => simp [letters] at h
    | cons c t =>
      simp only [letters] at h
      split at h
      next =>
        have hle := ih h
        rw [List.length_cons]
        omega
      next => simp at h

/-- What remains behind a word is no longer than what followed its first letter. -/
theorem length_wordMark (w : Word) (rest t : Text) : (wordMark w rest t).2.length ≤ t.length := by
  unfold wordMark
  split
  next h => exact length_of_letters h
  next => exact Nat.zero_le _

/-- What remains behind a number is no longer than what followed its first character. -/
theorem length_numberMark (c : Char) (t : Text) : (numberMark (c :: t)).2.length ≤ t.length := by
  unfold numberMark
  split
  next h => exact Nat.le_of_lt_succ (Numeral.length_of_read h)
  next => exact Nat.zero_le _

/-- What remains behind a string is no longer than what followed its quote. -/
theorem length_stringMark (t : Text) : (stringMark t).2.length ≤ t.length := by
  unfold stringMark
  dsimp only
  split
  next h => exact Nat.le_of_lt (length_of_pieces h)
  next => exact Nat.zero_le _

/-- A bound that holds in both cases holds. -/
theorem length_ite {p : Prop} [Decidable p] {a b : Mark × Text} {n : Nat}
    (ha : a.2.length ≤ n) (hb : b.2.length ≤ n) : (if p then a else b).2.length ≤ n := by
  by_cases h : p
  · rwa [if_pos h]
  · rwa [if_neg h]

/-- What remains behind a mark is no longer than what followed its first character. -/
theorem length_nextMark (c : Char) (t : Text) : (nextMark c t).2.length ≤ t.length := by
  have hle := Nat.le_refl t.length
  exact length_ite hle (length_ite hle (length_ite hle (length_ite hle (length_ite hle
    (length_ite hle (length_ite (length_wordMark _ _ t) (length_ite (length_wordMark _ _ t)
      (length_ite (length_wordMark _ _ t) (length_ite (length_stringMark t)
        (length_ite (length_numberMark c t) (Nat.zero_le _)))))))))))

/-- Fuel for every character is enough, and more makes no difference. -/
theorem marksWithin_congr {m n : Nat} {t : Text} (hm : t.length ≤ m) (hn : t.length ≤ n) :
    marksWithin m t = marksWithin n t := by
  induction m generalizing n t with
  | zero =>
    obtain rfl : t = [] := List.eq_nil_of_length_eq_zero (Nat.le_zero.1 hm)
    cases n <;> rfl
  | succ m ih =>
    cases t with
    | nil => cases n <;> rfl
    | cons c t =>
      cases n with
      | zero => simp at hn
      | succ n =>
        have hm' : t.length ≤ m := Nat.le_of_succ_le_succ hm
        have hn' : t.length ≤ n := Nat.le_of_succ_le_succ hn
        have hrest := length_nextMark c t
        simp only [marksWithin, ih hm' hn',
          ih (Nat.le_trans hrest hm') (Nat.le_trans hrest hn')]

/-- A text begins with space, which is passed over, or with its first mark. -/
theorem marks_cons (c : Char) (t : Text) :
    marks (c :: t) =
      if isSpace c then marks t else (nextMark c t).1 :: marks (nextMark c t).2 := by
  simp only [marks, List.length_cons, marksWithin]
  rw [marksWithin_congr (length_nextMark c t) (Nat.le_refl _)]

/-- The first mark of a text is followed by the marks of what remains. -/
theorem marks_of_nextMark {c : Char} {t rest : Text} {m : Mark} (hspace : isSpace c = false)
    (h : nextMark c t = (m, rest)) : marks (c :: t) = m :: marks rest := by
  rw [marks_cons, hspace, h]
  rfl

/-- The mark that a structural character is. -/
def structural? : Char → Option Mark
  | '[' => some .openBracket
  | ']' => some .closeBracket
  | '\x7b' => some .openBrace
  | '\x7d' => some .closeBrace
  | ',' => some .comma
  | ':' => some .colon
  | _ => none

/-- A structural character is a mark by itself, whatever comes after it. -/
theorem marks_structural {c : Char} {m : Mark} (h : structural? c = some m) (t : Text) :
    marks (c :: t) = m :: marks t := by
  unfold structural? at h
  split at h <;> cases h <;> exact marks_of_nextMark rfl rfl

/-- Space in front has no marks. -/
theorem marks_spaces {u : Text} (h : IsSpaces u) (rest : Text) :
    marks (u ++ rest) = marks rest := by
  induction u with
  | nil => rfl
  | cons c u ih =>
    rw [List.cons_append, marks_cons, h c List.mem_cons_self]
    exact ih fun d hd => h d (List.mem_cons_of_mem c hd)

/-- Space ends a number, and so does what may follow a number behind space. -/
theorem EndsNumber.spaces {u rest : Text} (hu : IsSpaces u) (h : EndsNumber rest) :
    EndsNumber (u ++ rest) := by
  cases u with
  | nil => exact h
  | cons c u =>
    have hc := hu c List.mem_cons_self
    simp only [isSpace, Bool.or_eq_true, decide_eq_true_eq] at hc
    rcases hc with ((rfl | rfl) | rfl) | rfl <;>
      exact endsNumber_cons (by decide) (by decide)

/-- A minus sign or a digit begins a number. -/
theorem nextMark_number {c : Char} (hc : c = '-' ∨ c.isDigit = true) (t : Text) :
    isSpace c = false ∧ nextMark c t = numberMark (c :: t) := by
  have hne : ∀ d : Char, ¬ (d = '-' ∨ d.isDigit = true) → c ≠ d := by
    rintro d hd rfl
    exact hd hc
  simp [isSpace, nextMark, hc, hne ' ' (by decide), hne '\n' (by decide), hne '\t' (by decide),
    hne '\r' (by decide), hne '\x7b' (by decide), hne '\x7d' (by decide), hne '[' (by decide),
    hne ']' (by decide), hne ',' (by decide), hne ':' (by decide), hne 'n' (by decide),
    hne 't' (by decide), hne 'f' (by decide), hne '\x22' (by decide)]

/-! ## Rows -/

/-- The mark of a string. -/
def textMark (t : Text) : Mark :=
  .string ⟨.ok t, .ok ()⟩

mutual

/-- The marks of a value. -/
def Value.row : Value → List Mark
  | .null => [.word (.ok .null)]
  | .boolean b => [.word (.ok (if b then .yes else .no))]
  | .number x => [.number ⟨x.value, .ok ()⟩]
  | .text t => [textMark t]
  | .array items => .openBracket :: itemsRow true items
  | .object members => .openBrace :: membersRow true members

/-- The marks of the items of an array and of its end. -/
def itemsRow : Bool → List Value → List Mark
  | _, [] => [.closeBracket]
  | first, v :: vs => (if first then [] else [.comma]) ++ v.row ++ itemsRow false vs

/-- The marks of the members of an object and of its end. -/
def membersRow : Bool → List (Text × Value) → List Mark
  | _, [] => [.closeBrace]
  | first, (k, v) :: ms =>
    (if first then [] else [.comma]) ++ textMark k :: .colon :: v.row ++ membersRow false ms

end

/-! ## The marks of a document -/

/-- A spelled number is one mark with its value. -/
theorem marks_numeral {x : Numeral} {u rest : Text} (h : SpellsNumeral x u)
    (hrest : EndsNumber rest) :
    marks (u ++ rest) = .number ⟨x.value, .ok ()⟩ :: marks rest := by
  have hhead : ∃ c t, u = c :: t ∧ (c = '-' ∨ c.isDigit = true) := by
    cases h with
    | @mk negative whole fraction exponent point power hwhole =>
      obtain ⟨c, w, rfl⟩ := List.exists_cons_of_ne_nil hwhole.1.1
      cases negative with
      | true => exact ⟨_, _, rfl, .inl rfl⟩
      | false => exact ⟨_, _, rfl, .inr (hwhole.1.2 c List.mem_cons_self)⟩
  obtain ⟨c, t, rfl, hc⟩ := hhead
  obtain ⟨hspace, hnext⟩ := nextMark_number hc (t ++ rest)
  rw [List.cons_append]
  apply marks_of_nextMark hspace
  rw [hnext, ← List.cons_append, numberMark, Numeral.read_append h hrest]

/-- A spelled string is one mark with its characters. -/
theorem marks_text {t u : Text} (h : SpellsText t u) (rest : Text) :
    marks (u ++ rest) = textMark t :: marks rest := by
  cases h with
  | mk h =>
    rw [List.append_assoc, List.cons_append]
    exact marks_of_nextMark rfl (stringMark_of_spells h rest)

mutual

/-- A spelled value has the row of marks of the value. -/
theorem marks_value {v : Value} {u : Text} :
    Spells v u → ∀ {rest : Text}, EndsNumber rest → marks (u ++ rest) = v.row ++ marks rest
  | .null, _, _ => marks_of_nextMark rfl rfl
  | .yes, _, _ => marks_of_nextMark rfl rfl
  | .no, _, _ => marks_of_nextMark rfl rfl
  | .number h, _, hrest => marks_numeral h hrest
  | .text h, rest, _ => marks_text h rest
  | .emptyArray h, rest, _ => by
    rw [List.append_assoc, List.cons_append, marks_structural (c := '[') rfl, marks_spaces h,
      List.singleton_append, marks_structural (c := ']') rfl]
    rfl
  | .array h, rest, _ => by
    rw [List.append_assoc, List.cons_append, marks_structural (c := '[') rfl, List.singleton_append,
      marks_items h rest]
    rfl
  | .emptyObject h, rest, _ => by
    rw [List.append_assoc, List.cons_append, marks_structural (c := '\x7b') rfl, marks_spaces h,
      List.singleton_append, marks_structural (c := '\x7d') rfl]
    rfl
  | .object h, rest, _ => by
    rw [List.append_assoc, List.cons_append, marks_structural (c := '\x7b') rfl,
      List.singleton_append, marks_members h rest]
    rfl

/-- Space around a value changes nothing. -/
theorem marks_padded {v : Value} {u : Text} :
    SpellsPadded v u → ∀ {rest : Text}, EndsNumber rest → marks (u ++ rest) = v.row ++ marks rest
  | .mk hbefore h hafter, _, hrest => by
    rw [List.append_assoc, List.append_assoc, marks_spaces hbefore,
      marks_value h (hrest.spaces hafter), marks_spaces hafter]

/-- The spelled elements of an array have the rows of the elements, with commas between them. -/
theorem marks_items {v : Value} {vs : List Value} {u : Text} :
    SpellsItems v vs u →
      ∀ rest : Text, marks (u ++ ']' :: rest) = itemsRow true (v :: vs) ++ marks rest
  | .last h, rest => by
    rw [marks_padded h (endsNumber_cons (by decide) (by decide)), marks_structural (c := ']') rfl]
    simp [itemsRow]
  | .more h hrest, rest => by
    rw [List.append_assoc, List.cons_append,
      marks_padded h (endsNumber_cons (by decide) (by decide)), marks_structural (c := ',') rfl,
      marks_items hrest rest]
    simp [itemsRow]

/-- A spelled member has its key, a colon and the row of its value. -/
theorem marks_member {k : Text} {v : Value} {u : Text} :
    SpellsMember k v u → ∀ {rest : Text}, EndsNumber rest →
      marks (u ++ rest) = textMark k :: .colon :: v.row ++ marks rest
  | .mk hbefore hkey hafter h, rest, hrest => by
    rw [List.append_assoc, List.append_assoc, List.append_assoc, List.cons_append,
      marks_spaces hbefore, marks_text hkey, marks_spaces hafter, marks_structural (c := ':') rfl,
      marks_padded h hrest]
    rfl

/-- The spelled members of an object have the rows of the members, with commas between them. -/
theorem marks_members {k : Text} {v : Value} {ms : List (Text × Value)} {u : Text} :
    SpellsMembers k v ms u → ∀ rest : Text,
      marks (u ++ '\x7d' :: rest) = membersRow true ((k, v) :: ms) ++ marks rest
  | .last h, rest => by
    rw [marks_member h (endsNumber_cons (by decide) (by decide)),
      marks_structural (c := '\x7d') rfl]
    simp [membersRow]
  | .more h hrest, rest => by
    rw [List.append_assoc, List.cons_append,
      marks_member h (endsNumber_cons (by decide) (by decide)), marks_structural (c := ',') rfl,
      marks_members hrest rest]
    simp [membersRow]

end

/-- A document has the row of marks of its value. -/
theorem marks_document {v : Value} {t : Text} (h : IsDocument v t) : marks t = v.row := by
  have hmarks := marks_padded h endsNumber_nil
  rw [List.append_nil] at hmarks
  rw [hmarks]
  exact List.append_nil _

/-! ## Skipping -/

section

variable {frames : List Frame} {e : Expectation}

/-- Where a value may begin, a bracket opens an array. -/
theorem skipWithin_openBracket (he : e = .value ∨ e = .firstElement) (ms : List Mark) :
    skipWithin frames e (.openBracket :: ms) = skipWithin (.array :: frames) .firstElement ms := by
  rcases he with rfl | rfl <;> cases frames <;> rfl

/-- Where a value may begin, a brace opens an object. -/
theorem skipWithin_openBrace (he : e = .value ∨ e = .firstElement) (ms : List Mark) :
    skipWithin frames e (.openBrace :: ms) = skipWithin (.object :: frames) .firstKey ms := by
  rcases he with rfl | rfl <;> cases frames <;> rfl

end

mutual

/-- Where a value may begin, a value is skipped with the end of its row. -/
theorem skipWithin_row : ∀ (v : Value) (frames : List Frame) (e : Expectation) (rest : List Mark),
    e = .value ∨ e = .firstElement →
      skipWithin frames e (v.row ++ rest) = skipWithin frames .separator rest
  | .null, frames, e, rest, he => by
    rcases he with rfl | rfl <;> cases frames <;> rfl
  | .boolean b, frames, e, rest, he => by
    rcases he with rfl | rfl <;> cases frames <;> rfl
  | .number x, frames, e, rest, he => by
    rcases he with rfl | rfl <;> cases frames <;> rfl
  | .text t, frames, e, rest, he => by
    rcases he with rfl | rfl <;> cases frames <;> rfl
  | .array items, frames, e, rest, he => by
    rw [Value.row, List.cons_append, skipWithin_openBracket he]
    exact skipWithin_itemsRow items true frames rest
  | .object members, frames, e, rest, he => by
    rw [Value.row, List.cons_append, skipWithin_openBrace he]
    exact skipWithin_membersRow members true frames rest

/-- The elements of an array are skipped with the bracket that closes it. -/
theorem skipWithin_itemsRow : ∀ (vs : List Value) (first : Bool) (frames : List Frame)
    (rest : List Mark),
    skipWithin (.array :: frames) (if first then .firstElement else .separator)
      (itemsRow first vs ++ rest) = skipWithin frames .separator rest
  | [], first, frames, rest => by
    cases first <;> rfl
  | v :: vs, first, frames, rest => by
    have hitem : ∀ e, e = .value ∨ e = .firstElement →
        skipWithin (.array :: frames) e (v.row ++ (itemsRow false vs ++ rest)) =
          skipWithin frames .separator rest := fun e he => by
      rw [skipWithin_row v _ e _ he]
      exact skipWithin_itemsRow vs false frames rest
    rw [itemsRow, List.append_assoc, List.append_assoc]
    cases first with
    | true => exact hitem .firstElement (.inr rfl)
    | false => exact hitem .value (.inl rfl)

/-- The members of an object are skipped with the brace that closes it. -/
theorem skipWithin_membersRow : ∀ (ms : List (Text × Value)) (first : Bool) (frames : List Frame)
    (rest : List Mark),
    skipWithin (.object :: frames) (if first then .firstKey else .separator)
      (membersRow first ms ++ rest) = skipWithin frames .separator rest
  | [], first, frames, rest => by
    cases first <;> rfl
  | (k, v) :: ms, first, frames, rest => by
    have hvalue : skipWithin (.object :: frames) .value (v.row ++ (membersRow false ms ++ rest)) =
        skipWithin frames .separator rest := by
      rw [skipWithin_row v _ .value _ (.inl rfl)]
      exact skipWithin_membersRow ms false frames rest
    rw [membersRow, List.append_assoc, List.append_assoc]
    cases first with
    | true => exact hvalue
    | false => exact hvalue

end

/-- Skipping a value goes past its row and no further. -/
theorem skip_row (v : Value) (rest : List Mark) : skip (v.row ++ rest) = .ok rest := by
  rw [skip, skipWithin_row v [] .value rest (.inl rfl)]
  cases rest <;> rfl

end ScriptWorkbench.Json
