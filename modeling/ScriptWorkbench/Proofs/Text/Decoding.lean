import ScriptWorkbench.Proofs.Text.Chunks
import ScriptWorkbench.Proofs.Text.Encoding

/-!
# Decoding what was encoded

The encoding of a text is read without a broken part, and it gives the text back
(`Utf8.scan_bytes`).  So a line that is written to a stream, with a line feed or with a carriage
return and a line feed behind it, is handed out as it was, however it is cut
(`Splitter.pushAll_line`).
-/

set_option autoImplicit false

namespace ScriptWorkbench

namespace Utf8

/-! ## One character -/

/-- A byte of ASCII announces no more bytes. -/
theorem lead?_one {n : Nat} (h : n < 0x80) : lead? (UInt8.ofNat n) = some ⟨n, []⟩ := by
  have hn : (UInt8.ofNat n).toNat = n := UInt8.toNat_ofNat_of_lt' (show n < 256 by omega)
  simp only [lead?, hn]
  rw [if_pos h]

/-- The first byte of a character of two bytes announces the second. -/
theorem lead?_two {n : Nat} (hlow : 0xC2 ≤ n) (hhigh : n < 0xE0) :
    lead? (UInt8.ofNat n) = some ⟨n - 0xC0, [tail]⟩ := by
  have hn : (UInt8.ofNat n).toNat = n := UInt8.toNat_ofNat_of_lt' (show n < 256 by omega)
  simp only [lead?, hn]
  rw [if_neg (by omega), if_neg (by omega), if_pos hhigh]

/-- After the first byte of three, the second has all values but those of overlong forms and of
surrogates. -/
theorem lead?_three {n : Nat} (hlow : 0xE0 ≤ n) (hhigh : n < 0xF0) :
    ∃ low high, lead? (UInt8.ofNat n) = some ⟨n - 0xE0, [(low, high), tail]⟩ ∧
      ∀ x, 0x80 ≤ x → x ≤ 0xBF → (n = 0xE0 → 0xA0 ≤ x) → (n = 0xED → x ≤ 0x9F) →
        low ≤ x ∧ x ≤ high := by
  have hn : (UInt8.ofNat n).toNat = n := UInt8.toNat_ofNat_of_lt' (show n < 256 by omega)
  simp only [lead?, hn]
  rw [if_neg (by omega), if_neg (by omega), if_neg (by omega)]
  by_cases hfirst : n = 0xE0
  · subst hfirst
    exact ⟨0xA0, 0xBF, by simp, fun x _ hx hle _ => ⟨hle rfl, hx⟩⟩
  · rw [if_neg hfirst]
    by_cases hsurrogate : n = 0xED
    · subst hsurrogate
      exact ⟨0x80, 0x9F, by simp, fun x hx _ _ hle => ⟨hx, hle rfl⟩⟩
    · rw [if_neg hsurrogate, if_pos hhigh]
      exact ⟨0x80, 0xBF, rfl, fun x hx hx' _ _ => ⟨hx, hx'⟩⟩

/-- After the first byte of four, the second has all values but those of overlong forms and of codes
that are too great. -/
theorem lead?_four {n : Nat} (hlow : 0xF0 ≤ n) (hhigh : n ≤ 0xF4) :
    ∃ low high, lead? (UInt8.ofNat n) = some ⟨n - 0xF0, [(low, high), tail, tail]⟩ ∧
      ∀ x, 0x80 ≤ x → x ≤ 0xBF → (n = 0xF0 → 0x90 ≤ x) → (n = 0xF4 → x ≤ 0x8F) →
        low ≤ x ∧ x ≤ high := by
  have hn : (UInt8.ofNat n).toNat = n := UInt8.toNat_ofNat_of_lt' (show n < 256 by omega)
  simp only [lead?, hn]
  rw [if_neg (by omega), if_neg (by omega), if_neg (by omega), if_neg (by omega),
    if_neg (by omega), if_neg (by omega)]
  by_cases hfirst : n = 0xF0
  · subst hfirst
    exact ⟨0x90, 0xBF, by simp, fun x _ hx hle _ => ⟨hle rfl, hx⟩⟩
  · rw [if_neg hfirst]
    by_cases hlast : n = 0xF4
    · subst hlast
      exact ⟨0x80, 0x8F, by simp, fun x hx _ _ hle => ⟨hx, hle rfl⟩⟩
    · rw [if_pos (by omega)]
      exact ⟨0x80, 0xBF, rfl, fun x hx hx' _ _ => ⟨hx, hx'⟩⟩

/-- A continuation byte in its range adds its six bits. -/
theorem follow_cons {low high code x : Nat} (ranges : List (Nat × Nat)) (rest : Bytes)
    (hrange : low ≤ x % 64 + 128 ∧ x % 64 + 128 ≤ high) :
    follow code ((low, high) :: ranges) (UInt8.ofNat (x % 64 + 128) :: rest) =
      follow (code * 64 + x % 64) ranges rest := by
  have hn : (UInt8.ofNat (x % 64 + 128)).toNat = x % 64 + 128 :=
    UInt8.toNat_ofNat_of_lt' (show x % 64 + 128 < 256 by omega)
  have hbits : (x % 64 + 128) % 64 = x % 64 := by omega
  simp only [follow, hn, hbits]
  rw [if_pos hrange]

/-- A continuation byte adds its six bits. -/
theorem follow_tail (code x : Nat) (ranges : List (Nat × Nat)) (rest : Bytes) :
    follow code (tail :: ranges) (UInt8.ofNat (x % 64 + 128) :: rest) =
      follow (code * 64 + x % 64) ranges rest := by
  apply follow_cons
  omega

/-- A first byte and the bytes that it announces make a character. -/
theorem next_eq {b : UInt8} {l : Lead} {rest after : Bytes} {code : Nat} (hl : lead? b = some l)
    (hfollow : follow l.bits l.ranges rest = (some code, after)) :
    next b rest = (some (Char.ofNat code), after) := by
  simp only [next, hl, hfollow, Option.map_some]

/-- The encoding of a character is read as that character. -/
theorem scan_append (c : Char) (rest : Bytes) :
    scan (String.utf8EncodeChar c ++ rest) = some c :: scan rest := by
  have hread : ∃ b bs, String.utf8EncodeChar c = b :: bs ∧
      next b (bs ++ rest) = (some (Char.ofNat c.val.toNat), rest) := by
    have hvalid : c.val.toNat < 55296 ∨ 57343 < c.val.toNat ∧ c.val.toNat < 1114112 := c.valid
    unfold String.utf8EncodeChar
    generalize c.val.toNat = v at hvalid ⊢
    dsimp only
    -- one case for each length; that the code is no surrogate and not too great is what the second
    -- byte of a long encoding has to meet
    split
    · refine ⟨_, _, rfl, next_eq (lead?_one (by omega)) rfl⟩
    · split
      · refine ⟨_, _, rfl, next_eq (lead?_two (by omega) (by omega)) ?_⟩
        have hcode : (v / 64 % 32 + 192 - 0xC0) * 64 + v % 64 = v := by omega
        show follow (v / 64 % 32 + 192 - 0xC0) [tail] (UInt8.ofNat (v % 64 + 128) :: rest) = _
        rw [follow_tail, hcode, follow]
      · split
        · obtain ⟨low, high, hlead, hrange⟩ :=
            lead?_three (n := v / 4096 % 16 + 224) (by omega) (by omega)
          have hsecond := hrange (v / 64 % 64 + 128) (by omega) (by omega) (by omega) (by omega)
          refine ⟨_, _, rfl, next_eq hlead ?_⟩
          have hcode : ((v / 4096 % 16 + 224 - 0xE0) * 64 + v / 64 % 64) * 64 + v % 64 = v := by
            omega
          show follow (v / 4096 % 16 + 224 - 0xE0) [(low, high), tail]
            (UInt8.ofNat (v / 64 % 64 + 128) :: UInt8.ofNat (v % 64 + 128) :: rest) = _
          rw [follow_cons _ _ hsecond, follow_tail, hcode, follow]
        · obtain ⟨low, high, hlead, hrange⟩ :=
            lead?_four (n := v / 262144 % 8 + 240) (by omega) (by omega)
          have hsecond := hrange (v / 4096 % 64 + 128) (by omega) (by omega) (by omega) (by omega)
          refine ⟨_, _, rfl, next_eq hlead ?_⟩
          have hcode : (((v / 262144 % 8 + 240 - 0xF0) * 64 + v / 4096 % 64) * 64 +
              v / 64 % 64) * 64 + v % 64 = v := by omega
          show follow (v / 262144 % 8 + 240 - 0xF0) [(low, high), tail, tail]
            (UInt8.ofNat (v / 4096 % 64 + 128) :: UInt8.ofNat (v / 64 % 64 + 128) ::
              UInt8.ofNat (v % 64 + 128) :: rest) = _
          rw [follow_cons _ _ hsecond, follow_tail, follow_tail, hcode, follow]
  obtain ⟨b, bs, hencode, hnext⟩ := hread
  have hchar : Char.ofNat c.val.toNat = c := Char.ofNat_toNat c
  rw [hencode, List.cons_append, scan, hnext, hchar]

/-! ## A whole text -/

/-- The bytes of a text decode to its characters, without a broken part. -/
theorem scan_bytes (t : Text) : scan t.bytes = t.map some := by
  induction t with
  | nil =>
    rw [show Text.bytes [] = [] from rfl, scan]
    rfl
  | cons c t ih => rw [Text.bytes_cons, scan_append, ih, List.map_cons]

/-- The encoding of a text gives the text back. -/
theorem decodeLossy_bytes (t : Text) : decodeLossy t.bytes = t := by
  rw [decodeLossy, scan_bytes, List.map_map]
  exact List.map_id t

end Utf8

/-! ## A line on a stream -/

namespace Text

/-- A line has no line feed among its bytes. -/
theorem lineFeed_notMem_bytes {line : Text} (h : '\n' ∉ line) : lineFeed ∉ line.bytes := by
  intro hmem
  exact h ((ascii_mem_bytes_iff (c := '\n') (by decide)).1 hmem)

/-- Only a carriage return ends in the byte of a carriage return. -/
theorem getLast?_bytes_ne {line : Text} (h : line.getLast? ≠ some '\r') :
    line.bytes.getLast? ≠ some carriageReturn := by
  rcases List.eq_nil_or_concat line with rfl | ⟨before, c, rfl⟩
  · simp [bytes]
  · rw [List.concat_eq_append] at h ⊢
    rw [List.getLast?_append, List.getLast?_singleton, Option.some_or] at h
    intro hlast
    -- the byte is one of `c`, and then it is all of `c`
    obtain ⟨b, hb, hbytes⟩ := exists_getLast?_bytes_concat before c
    rw [hlast, Option.some.injEq] at hbytes
    subst hbytes
    have hmem : UInt8.ofNat '\r'.toNat ∈ bytes [c] := by
      rw [bytes_cons]
      exact List.mem_append_left _ hb
    rw [ascii_mem_bytes_iff (by decide), List.mem_singleton] at hmem
    exact h (congrArg some hmem.symm)

end Text

namespace Bytes

/-- What a line loses at its end does not belong to it. -/
theorem lineText_bytes {line : Text} (h : line.getLast? ≠ some '\r') :
    lineText line.bytes = line ∧ lineText (line.bytes ++ [carriageReturn]) = line := by
  constructor
  · rw [lineText_of_getLast?_ne (Text.getLast?_bytes_ne h), Utf8.decodeLossy_bytes]
  · exact (lineText_append_return line.bytes).trans (Utf8.decodeLossy_bytes line)

end Bytes

/-- A line that is written with its end comes back, however it is cut, if it does not end in a
carriage return itself. -/
theorem Splitter.pushAll_line {line : Text} (hfeed : '\n' ∉ line)
    (hreturn : line.getLast? ≠ some '\r') {chunks : List Bytes}
    (hchunks : chunks.flatten = line.bytes ++ [lineFeed] ∨
      chunks.flatten = line.bytes ++ [carriageReturn, lineFeed]) :
    empty.pushAll chunks = ([line], empty) := by
  have hbytes := Text.lineFeed_notMem_bytes hfeed
  obtain ⟨hplain, hchopped⟩ := Bytes.lineText_bytes hreturn
  have hcut : ∀ bytes : Bytes, lineFeed ∉ bytes →
      empty.push (bytes ++ [lineFeed]) = ([bytes.lineText], empty) := by
    intro bytes h
    rw [push]
    simp [empty, Bytes.splitLines_line h, Bytes.splitLines]
  rw [pushAll_empty]
  rcases hchunks with hchunks | hchunks
  · rw [hchunks, hcut _ hbytes, hplain]
  · have hboth : lineFeed ∉ line.bytes ++ [carriageReturn] := by
      rw [List.mem_append, not_or]
      exact ⟨hbytes, by decide⟩
    have hsplit : line.bytes ++ [carriageReturn, lineFeed] =
        (line.bytes ++ [carriageReturn]) ++ [lineFeed] := by simp
    rw [hchunks, hsplit, hcut _ hboth, hchopped]

end ScriptWorkbench
