import ScriptWorkbench.Text.Slice

/-!
# Runs of bytes and runs of characters

If all bytes of a character are in a class of bytes or none of them is, then runs of bytes are runs
of characters (`Text.takeWhile_bytes`).  The bytes of an ASCII character are that one byte, and no
other character has such a byte, so this is so for every class of ASCII characters
(`IsAsciiClass.mem_utf8EncodeChar`) and for the characters outside of it.
-/

set_option autoImplicit false

namespace ScriptWorkbench

/-- A character of ASCII is one byte. -/
theorem utf8EncodeChar_ascii {c : Char} (h : c.toNat < 128) :
    String.utf8EncodeChar c = [UInt8.ofNat c.toNat] := by
  unfold String.utf8EncodeChar
  exact if_pos (Nat.le_of_lt_succ h)

/-- No byte of another character is one of ASCII. -/
theorem le_of_mem_utf8EncodeChar {c : Char} (h : 128 ≤ c.toNat) {b : UInt8}
    (hb : b ∈ String.utf8EncodeChar c) : 128 ≤ b.toNat := by
  have hsmall : ¬ c.val.toNat ≤ 127 := Nat.not_le_of_lt h
  have hbyte : ∀ n : Nat, 128 ≤ n → n < 256 → 128 ≤ (UInt8.ofNat n).toNat := by
    intro n hn hlt
    rw [UInt8.toNat_ofNat_of_lt' hlt]
    exact hn
  unfold String.utf8EncodeChar at hb
  simp only [if_neg hsmall] at hb
  split at hb
  · simp only [List.mem_cons, List.not_mem_nil, or_false] at hb
    rcases hb with rfl | rfl <;> apply hbyte <;> omega
  · split at hb
    · simp only [List.mem_cons, List.not_mem_nil, or_false] at hb
      rcases hb with rfl | rfl | rfl <;> apply hbyte <;> omega
    · simp only [List.mem_cons, List.not_mem_nil, or_false] at hb
      rcases hb with rfl | rfl | rfl | rfl <;> apply hbyte <;> omega

namespace Text

/-- The bytes of a text begin with those of its first character. -/
theorem bytes_cons (c : Char) (t : Text) : bytes (c :: t) = String.utf8EncodeChar c ++ bytes t :=
  List.flatMap_cons

/-- A text has as many bytes as are counted. -/
theorem length_bytes (t : Text) : (bytes t).length = byteSize t := by
  induction t with
  | nil => rfl
  | cons c t ih =>
    rw [bytes_cons, List.length_append, ih, String.length_utf8EncodeChar, byteSize_cons]

/-- The bytes of two texts stand one behind the other. -/
theorem bytes_append (s t : Text) : bytes (s ++ t) = bytes s ++ bytes t :=
  List.flatMap_append

/-- Behind the bytes of a part stand those of the rest. -/
theorem drop_bytes_append (s t : Text) : (bytes (s ++ t)).drop (byteSize s) = bytes t := by
  rw [bytes_append, ← length_bytes, List.drop_left]

/-- Between its two boundaries stand the bytes of the middle part. -/
theorem slice?_bytes_append (s u t : Text) :
    (bytes (s ++ (u ++ t))).slice? (byteSize s) (byteSize s + byteSize u) = some (bytes u) := by
  have hlength : byteSize s + byteSize u ≤ (bytes (s ++ (u ++ t))).length := by
    rw [length_bytes, byteSize_append, byteSize_append]
    omega
  rw [Bytes.slice?_of_le (Nat.le_add_right _ _) hlength, drop_bytes_append, bytes_append,
    Nat.add_sub_cancel_left, ← length_bytes, List.take_left]

/-- A character of ASCII is in a text where its byte is. -/
theorem ascii_mem_bytes_iff {c : Char} (hc : c.toNat < 128) {t : Text} :
    UInt8.ofNat c.toNat ∈ t.bytes ↔ c ∈ t := by
  have hbyte : ∀ d : Char, d.toNat < 128 → (UInt8.ofNat d.toNat).toNat = d.toNat :=
    fun d hd => UInt8.toNat_ofNat_of_lt' (show d.toNat < 256 by omega)
  rw [bytes, List.mem_flatMap]
  constructor
  · rintro ⟨d, hd, hmem⟩
    by_cases hascii : d.toNat < 128
    · rw [utf8EncodeChar_ascii hascii, List.mem_singleton] at hmem
      have hcode := congrArg UInt8.toNat hmem
      rw [hbyte c hc, hbyte d hascii] at hcode
      rwa [Char.toNat_inj.1 hcode]
    · have hle := le_of_mem_utf8EncodeChar (Nat.le_of_not_lt hascii) hmem
      rw [hbyte c hc] at hle
      omega
  · intro hmem
    refine ⟨c, hmem, ?_⟩
    rw [utf8EncodeChar_ascii hc]
    exact List.mem_singleton_self _

/-- The last byte of a text is one of its last character. -/
theorem exists_getLast?_bytes_concat (s : Text) (c : Char) :
    ∃ b ∈ String.utf8EncodeChar c, (bytes (s ++ [c])).getLast? = some b := by
  cases hlast : (String.utf8EncodeChar c).getLast? with
  | none => exact absurd (List.getLast?_eq_none_iff.1 hlast) String.utf8EncodeChar_ne_nil
  | some b =>
    refine ⟨b, List.mem_of_getLast? hlast, ?_⟩
    have hc : bytes [c] = String.utf8EncodeChar c := by
      rw [bytes_cons]
      exact List.append_nil _
    rw [bytes_append, hc, List.getLast?_append, hlast, Option.some_or]

/-! ## Classes of characters as classes of bytes -/

variable {q : Char → Bool} {q' : UInt8 → Bool}

/-- A run of bytes is a run of characters, if the bytes of a character are in the class together or
not at all. -/
theorem takeWhile_bytes (h : ∀ c, ∀ b ∈ String.utf8EncodeChar c, q' b = q c) (t : Text) :
    (bytes t).takeWhile q' = bytes (t.takeWhile q) := by
  induction t with
  | nil => rfl
  | cons c t ih =>
    rw [bytes_cons]
    cases hq : q c with
    | true =>
      have hall : ∀ b ∈ String.utf8EncodeChar c, q' b = true := by
        intro b hb
        rw [h c b hb, hq]
      rw [List.takeWhile_append_of_pos hall, List.takeWhile_cons_of_pos hq, bytes_cons, ih]
    | false =>
      have hcut : ¬ q c = true := by simp [hq]
      rw [List.takeWhile_cons_of_neg hcut]
      cases hencode : String.utf8EncodeChar c with
      | nil => exact absurd hencode String.utf8EncodeChar_ne_nil
      | cons b bs =>
        have hb : q' b = false := by
          rw [h c b (hencode ▸ List.mem_cons_self), hq]
        rw [List.cons_append, List.takeWhile_cons_of_neg (by simp [hb])]
        rfl

/-- All bytes of a text are of a class exactly if all its characters are. -/
theorem all_bytes (h : ∀ c, ∀ b ∈ String.utf8EncodeChar c, q' b = q c) (t : Text) :
    (bytes t).all q' = t.all q := by
  induction t with
  | nil => rfl
  | cons c t ih =>
    have hfirst : (String.utf8EncodeChar c).all q' = q c := by
      cases hencode : String.utf8EncodeChar c with
      | nil => exact absurd hencode String.utf8EncodeChar_ne_nil
      | cons b bs =>
        have hbytes : ∀ b' ∈ b :: bs, q' b' = q c := fun b' hb' => h c b' (hencode ▸ hb')
        cases hq : q c with
        | true => exact List.all_eq_true.2 fun b' hb' => (hbytes b' hb').trans hq
        | false => rw [List.all_cons, hbytes b List.mem_cons_self, hq, Bool.false_and]
    rw [bytes_cons, List.all_append, hfirst, ih, List.all_cons]

end Text

/-- The bytes of a class are those of a class of ASCII characters. -/
structure IsAsciiClass (q : Char → Bool) (q' : UInt8 → Bool) : Prop where
  char : ∀ c, q c = true → c.toNat < 128
  byte : ∀ b, q' b = true → b.toNat < 128
  agree : ∀ n, n < 128 → q' (UInt8.ofNat n) = q (Char.ofNat n)

namespace IsAsciiClass

variable {q : Char → Bool} {q' : UInt8 → Bool}

/-- All bytes of a character are in the class, or none of them is. -/
theorem mem_utf8EncodeChar (h : IsAsciiClass q q') {c : Char} {b : UInt8}
    (hb : b ∈ String.utf8EncodeChar c) : q' b = q c := by
  by_cases hc : c.toNat < 128
  · rw [utf8EncodeChar_ascii hc, List.mem_singleton] at hb
    rw [hb, h.agree c.toNat hc, Char.ofNat_toNat]
  · have hq : q c = false := by
      cases hq : q c with
      | false => rfl
      | true => exact absurd (h.char c hq) hc
    rw [hq]
    cases hbyte : q' b with
    | false => rfl
    | true =>
      have hlt := h.byte b hbyte
      have hle := le_of_mem_utf8EncodeChar (Nat.le_of_not_lt hc) hb
      omega

/-- A run of bytes of a class is as long as the run of characters. -/
theorem length_takeWhile (h : IsAsciiClass q q') (t : Text) :
    (t.bytes.takeWhile q').length = Text.byteSize (t.takeWhile q) := by
  rw [Text.takeWhile_bytes fun _ _ => h.mem_utf8EncodeChar, Text.length_bytes]

end IsAsciiClass

end ScriptWorkbench
