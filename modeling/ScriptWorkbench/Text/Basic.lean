/-!
# Text and its byte offsets

Scripts, output lines and messages are lists of characters.  Places in them are counted in bytes
of the UTF-8 encoding, so this file says how many bytes a text takes, how a text is cut at a byte
count, and which byte counts fall between two characters.

The lemmas at the end are the ones that other files use: cutting loses nothing
(`takeBytes_append_dropBytes`), the cut part never exceeds the count (`byteSize_takeBytes_le`), and
`floorBoundary` always answers with a boundary (`isBoundary_floorBoundary`).
-/

set_option autoImplicit false

namespace ScriptWorkbench

/-- A text is the list of its characters. -/
abbrev Text := List Char

namespace Text

/-- Number of bytes in the UTF-8 encoding of a text. -/
def byteSize : Text → Nat
  | [] => 0
  | c :: t => c.utf8Size + byteSize t

/-- The longest beginning of a text that fits into `n` bytes. -/
def takeBytes : Text → Nat → Text
  | [], _ => []
  | c :: t, n => if c.utf8Size ≤ n then c :: takeBytes t (n - c.utf8Size) else []

/-- What remains of a text after `takeBytes`. -/
def dropBytes (t : Text) (n : Nat) : Text :=
  t.drop (t.takeBytes n).length

/-- The greatest place between two characters, or at an end, that is not beyond byte `n`. -/
def floorBoundary (t : Text) (n : Nat) : Nat :=
  byteSize (t.takeBytes n)

/-- Byte `n` lies between two characters of the text or at one of its ends. -/
def IsBoundary (t : Text) (n : Nat) : Prop :=
  ∃ before after : Text, t = before ++ after ∧ byteSize before = n

/-- The decimal digits of a number, without leading zeros. -/
def decimal (n : Nat) : Text :=
  Nat.toDigits 10 n

/-- The number that a row of decimal digits stands for; leading zeros do not matter. -/
def digitsValue (digits : Text) : Nat :=
  Nat.ofDigitChars 10 digits 0

/-- The empty text has no bytes. -/
@[simp]
theorem byteSize_nil : byteSize [] = 0 := rfl

/-- A character in front adds its own bytes. -/
@[simp]
theorem byteSize_cons (c : Char) (t : Text) : byteSize (c :: t) = c.utf8Size + byteSize t := rfl

/-- The bytes of two texts add up. -/
@[simp]
theorem byteSize_append (s t : Text) : byteSize (s ++ t) = byteSize s + byteSize t := by
  induction s with
  | nil => simp
  | cons c s ih => simp [ih, Nat.add_assoc]

/-- No character takes zero bytes, so a text has at most as many characters as bytes. -/
theorem length_le_byteSize (t : Text) : t.length ≤ byteSize t := by
  induction t with
  | nil => simp
  | cons c t ih =>
    have := c.utf8Size_pos
    simp only [List.length_cons, byteSize_cons]
    omega

/-- A text that is not empty has a byte. -/
theorem byteSize_pos {t : Text} (h : t ≠ []) : 0 < byteSize t :=
  Nat.lt_of_lt_of_le (List.length_pos_iff.2 h) (length_le_byteSize t)

/-- As much of a text as fits into some bytes is a beginning of it. -/
theorem takeBytes_isPrefixOf (t : Text) (n : Nat) : ∃ after, t = t.takeBytes n ++ after := by
  induction t generalizing n with
  | nil => exact ⟨[], rfl⟩
  | cons c t ih =>
    by_cases h : c.utf8Size ≤ n
    · obtain ⟨after, hafter⟩ := ih (n - c.utf8Size)
      exact ⟨after, by simp [takeBytes, h, ← hafter]⟩
    · exact ⟨c :: t, by simp [takeBytes, h]⟩

/-- Cutting a text loses nothing. -/
@[simp]
theorem takeBytes_append_dropBytes (t : Text) (n : Nat) : t.takeBytes n ++ t.dropBytes n = t := by
  obtain ⟨after, hafter⟩ := takeBytes_isPrefixOf t n
  have : t.dropBytes n = after := by
    unfold dropBytes
    generalize t.takeBytes n = before at hafter ⊢
    subst hafter
    simp
  rw [this, ← hafter]

/-- What is taken fits. -/
theorem byteSize_takeBytes_le (t : Text) (n : Nat) : byteSize (t.takeBytes n) ≤ n := by
  induction t generalizing n with
  | nil => simp [takeBytes]
  | cons c t ih =>
    by_cases h : c.utf8Size ≤ n
    · have := ih (n - c.utf8Size)
      simp only [takeBytes, h, if_true, byteSize_cons]
      omega
    · simp [takeBytes, h]

/-- Cutting at the end of a beginning gives that beginning. -/
theorem takeBytes_append_byteSize (s t : Text) : (s ++ t).takeBytes (byteSize s) = s := by
  induction s with
  | nil =>
    cases t with
    | nil => rfl
    | cons c t =>
      have := c.utf8Size_pos
      simp [takeBytes]
      omega
  | cons c s ih => simp [takeBytes, ih]

/-- `floorBoundary` answers with a boundary. -/
theorem isBoundary_floorBoundary (t : Text) (n : Nat) : t.IsBoundary (t.floorBoundary n) :=
  ⟨t.takeBytes n, t.dropBytes n, by simp, rfl⟩

/-- A byte count is a boundary exactly when `floorBoundary` keeps it. -/
theorem isBoundary_iff_floorBoundary (t : Text) (n : Nat) :
    t.IsBoundary n ↔ t.floorBoundary n = n := by
  constructor
  · rintro ⟨before, after, rfl, rfl⟩
    simp [floorBoundary, takeBytes_append_byteSize]
  · intro h
    exact h ▸ isBoundary_floorBoundary t n

end Text

end ScriptWorkbench
