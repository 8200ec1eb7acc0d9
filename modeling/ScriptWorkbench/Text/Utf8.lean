import ScriptWorkbench.Text.Basic

/-!
# UTF-8

Bytes come from files and from the output of a running interpreter, so they need not be UTF-8.
`Utf8.scan` reads every byte sequence: it yields the characters of the well-formed parts and one
mark for every broken part.  A broken part is the longest beginning of a character's encoding that
is followed by a byte that cannot continue it, or a single byte that begins no encoding.

`decodeLossy` shows each broken part as U+FFFD; `decode?` refuses a sequence that has any.
-/

set_option autoImplicit false

namespace ScriptWorkbench

/-- A sequence of bytes. -/
abbrev Bytes := List UInt8

/-- The UTF-8 encoding of a text. -/
def Text.bytes (t : Text) : Bytes :=
  t.flatMap String.utf8EncodeChar

namespace Utf8

/-- What the first byte of a character announces: the high bits of the character's code and the
range that each of the following bytes has to lie in. -/
structure Lead where
  bits : Nat
  ranges : List (Nat × Nat)

/-- The range of an ordinary continuation byte. -/
def tail : Nat × Nat := (0x80, 0xBF)

/-- What byte `b` announces, if a character can begin with it.  The ranges after `E0`, `ED`, `F0`
and `F4` are narrower: they rule out overlong forms, surrogates and codes beyond U+10FFFF. -/
def lead? (b : UInt8) : Option Lead :=
  let n := b.toNat
  if n < 0x80 then some ⟨n, []⟩
  else if n < 0xC2 then none
  else if n < 0xE0 then some ⟨n - 0xC0, [tail]⟩
  else if n = 0xE0 then some ⟨0, [(0xA0, 0xBF), tail]⟩
  else if n = 0xED then some ⟨0xD, [(0x80, 0x9F), tail]⟩
  else if n < 0xF0 then some ⟨n - 0xE0, [tail, tail]⟩
  else if n = 0xF0 then some ⟨0, [(0x90, 0xBF), tail, tail]⟩
  else if n < 0xF4 then some ⟨n - 0xF0, [tail, tail, tail]⟩
  else if n = 0xF4 then some ⟨4, [(0x80, 0x8F), tail, tail]⟩
  else none

/-- Reads the continuation bytes that were announced.  The first component is the code of the
character, or `none` if a byte is missing or out of range; the second is what was not read. -/
def follow (code : Nat) : List (Nat × Nat) → Bytes → Option Nat × Bytes
  | [], rest => (some code, rest)
  | _ :: _, [] => (none, [])
  | (low, high) :: ranges, b :: rest =>
    if low ≤ b.toNat ∧ b.toNat ≤ high then follow (code * 64 + b.toNat % 64) ranges rest
    else (none, b :: rest)

/-- Reading continuation bytes leaves no more than there was. -/
theorem length_follow_le (code : Nat) (ranges : List (Nat × Nat)) (bs : Bytes) :
    (follow code ranges bs).2.length ≤ bs.length := by
  induction ranges generalizing code bs with
  | nil => simp [follow]
  | cons r ranges ih =>
    obtain ⟨low, high⟩ := r
    cases bs with
    | nil => simp [follow]
    | cons b rest =>
      simp only [follow]
      split
      · exact Nat.le_succ_of_le (ih _ rest)
      · exact Nat.le_refl _

/-- Reads one character or one broken part at the front of `b :: rest`. -/
def next (b : UInt8) (rest : Bytes) : Option Char × Bytes :=
  match lead? b with
  | none => (none, rest)
  | some l => ((follow l.bits l.ranges rest).1.map Char.ofNat, (follow l.bits l.ranges rest).2)

/-- Reading a character or a broken part leaves no more than what followed its first byte. -/
theorem length_next_le (b : UInt8) (rest : Bytes) : (next b rest).2.length ≤ rest.length := by
  unfold next
  split
  · exact Nat.le_refl _
  · exact length_follow_le _ _ _

/-- The characters of a byte sequence, with `none` for every broken part. -/
def scan : Bytes → List (Option Char)
  | [] => []
  | b :: rest => (next b rest).1 :: scan (next b rest).2
termination_by bs => bs.length
decreasing_by exact Nat.lt_succ_of_le (length_next_le b rest)

/-- The character that stands for a broken part. -/
def replacement : Char := '\uFFFD'

/-- Decodes any byte sequence, with one U+FFFD for every broken part. -/
def decodeLossy (bs : Bytes) : Text :=
  (scan bs).map (·.getD replacement)

/-- Decodes a byte sequence that has no broken part. -/
def decode? (bs : Bytes) : Option Text :=
  (scan bs).mapM id

end Utf8

end ScriptWorkbench
