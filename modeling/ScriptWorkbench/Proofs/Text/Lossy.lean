import Mathlib
import ScriptWorkbench.Proofs.Text.Decoding
import ScriptWorkbench.Proofs.Text.Places

/-!
# Decoding line by line

A stream is cut into lines before it is decoded.  Decoding the whole stream first and cutting the
text gives the same lines (`Splitter.lines_lossy`), whatever the bytes are: no character and no
broken part goes on into a byte of ASCII (`Utf8.scan_append_of_isFresh`), and a character of ASCII
is read from its own byte only (`Utf8.exists_of_decodeLossy_eq`).
-/

set_option autoImplicit false

namespace ScriptWorkbench

/-- A carriage return at the end of a line does not belong to it. -/
def Text.chopReturn (line : Text) : Text :=
  if line.getLast? = some '\r' then line.dropLast else line

/-- The lines of a text that came from a stream.  What stands behind the last line feed is a line
only if it is not empty. -/
def Text.streamLines (t : Text) : List Text :=
  (if t.lines.getLast? = some [] then t.lines.dropLast else t.lines).map chopReturn

/-- What a program writes behind a line. -/
inductive LineEnding
  | feed
  | returnFeed
deriving DecidableEq, Repr

/-- The bytes that end a line. -/
def LineEnding.bytes : LineEnding → Bytes
  | feed => [lineFeed]
  | returnFeed => [carriageReturn, lineFeed]

/-- The bytes begin with none that a character could go on with. -/
def Bytes.IsFresh (rest : Bytes) : Prop :=
  ∀ b ∈ rest.head?, b.toNat < 0x80

namespace Utf8

/-! ## Announced bytes -/

/-- A second byte is announced, and so many bits that the code is not one of ASCII. -/
def Lead.IsLong (l : Lead) : Prop :=
  ∃ low high ranges, l.ranges = (low, high) :: ranges ∧ 0x80 ≤ low ∧ high ≤ 0xBF ∧
    (∀ r ∈ ranges, r = tail) ∧ 0x80 ≤ (l.bits * 64 + low % 64) * 64 ^ ranges.length

/-- A first byte is a byte of ASCII by itself, or it announces more. -/
theorem lead?_cases {b : UInt8} {l : Lead} (h : lead? b = some l) :
    (b.toNat < 0x80 ∧ l = ⟨b.toNat, []⟩) ∨ l.IsLong := by
  have hlead : ∀ bits low high (ranges : List (Nat × Nat)),
      some ⟨bits, (low, high) :: ranges⟩ = some l → 0x80 ≤ low → high ≤ 0xBF →
      (∀ r ∈ ranges, r = tail) → 0x80 ≤ (bits * 64 + low % 64) * 64 ^ ranges.length →
      l.IsLong := by
    intro bits low high ranges hl hlow hhigh hranges hbits
    rw [← Option.some.inj hl]
    exact ⟨low, high, ranges, rfl, hlow, hhigh, hranges, hbits⟩
  unfold lead? at h
  dsimp only at h
  split at h
  · exact Or.inl ⟨‹_›, (Option.some.inj h).symm⟩
  · apply Or.inr
    repeat' split at h
    all_goals
      first
      | exact absurd h.symm (Option.some_ne_none l)
      | apply hlead _ _ _ _ h
        · simp
        · simp
        · simp
        · simp <;> omega

/-- Announced bytes are not those of ASCII. -/
theorem Lead.IsLong.low_le {l : Lead} (h : l.IsLong) : ∀ r ∈ l.ranges, 0x80 ≤ r.1 := by
  obtain ⟨low, high, ranges, hl, hlow, -, hranges, -⟩ := h
  intro r hr
  rw [hl, List.mem_cons] at hr
  rcases hr with rfl | hr
  · exact hlow
  · rw [hranges r hr]
    decide

/-- Every announced byte shifts the bits before it. -/
theorem le_follow {code result : Nat} {ranges : List (Nat × Nat)} {bs : Bytes}
    (h : (follow code ranges bs).1 = some result) : code * 64 ^ ranges.length ≤ result := by
  induction ranges generalizing code bs with
  | nil =>
    rw [follow, Option.some.injEq] at h
    apply Nat.le_of_eq
    rw [List.length_nil, Nat.pow_zero, Nat.mul_one, h]
  | cons r ranges ih =>
    obtain ⟨low, high⟩ := r
    cases bs with
    | nil => cases h
    | cons b rest =>
      unfold follow at h
      split at h
      · have hmore := ih h
        have hcode : code * 64 * 64 ^ ranges.length ≤
            (code * 64 + b.toNat % 64) * 64 ^ ranges.length :=
          Nat.mul_le_mul_right _ (Nat.le_add_right _ _)
        rw [List.length_cons, Nat.pow_succ', ← Nat.mul_assoc]
        exact Nat.le_trans hcode hmore
      · cases h

/-- A character of more than one byte is not one of ASCII. -/
theorem Lead.IsLong.le_follow {l : Lead} (h : l.IsLong) {bs : Bytes} {code : Nat}
    (hcode : (follow l.bits l.ranges bs).1 = some code) : 0x80 ≤ code := by
  obtain ⟨low, high, ranges, hl, hlow, hhigh, -, hbits⟩ := h
  rw [hl] at hcode
  cases bs with
  | nil => cases hcode
  | cons b rest =>
    unfold follow at hcode
    split at hcode
    · have hb : low % 64 ≤ b.toNat % 64 := by omega
      have hmore : (l.bits * 64 + low % 64) * 64 ^ ranges.length ≤
          (l.bits * 64 + b.toNat % 64) * 64 ^ ranges.length :=
        Nat.mul_le_mul_right _ (Nat.add_le_add_left hb _)
      have hle := Utf8.le_follow hcode
      omega
    · cases hcode

/-! ## Stopping at a byte of ASCII -/

variable {rest : Bytes}

/-- Announced bytes are not found in fresh bytes behind. -/
theorem follow_append (hrest : rest.IsFresh) (code : Nat) {ranges : List (Nat × Nat)}
    (hranges : ∀ r ∈ ranges, 0x80 ≤ r.1) (bs : Bytes) :
    follow code ranges (bs ++ rest) =
      ((follow code ranges bs).1, (follow code ranges bs).2 ++ rest) := by
  induction ranges generalizing code bs with
  | nil => rfl
  | cons r ranges ih =>
    obtain ⟨low, high⟩ := r
    have hlow : 0x80 ≤ low := hranges (low, high) List.mem_cons_self
    cases bs with
    | nil =>
      cases rest with
      | nil => rfl
      | cons b rest =>
        have hb : b.toNat < 0x80 := hrest b rfl
        have hout : ¬ (low ≤ b.toNat ∧ b.toNat ≤ high) := by omega
        show follow code ((low, high) :: ranges) (b :: rest) = (none, b :: rest)
        rw [follow, if_neg hout]
    | cons b bs =>
      rw [List.cons_append, follow, follow]
      split
      · exact ih _ (fun r hr => hranges r (List.mem_cons_of_mem _ hr)) bs
      · rfl

/-- A character or a broken part does not go on into fresh bytes behind. -/
theorem next_append (hrest : rest.IsFresh) (b : UInt8) (bs : Bytes) :
    next b (bs ++ rest) = ((next b bs).1, (next b bs).2 ++ rest) := by
  unfold next
  cases hl : lead? b with
  | none => rfl
  | some l =>
    have hranges : ∀ r ∈ l.ranges, 0x80 ≤ r.1 := by
      rcases lead?_cases hl with ⟨-, rfl⟩ | hlong
      · simp
      · exact hlong.low_le
    dsimp only
    rw [follow_append hrest l.bits hranges bs]

/-- What stands before a byte of ASCII is read as if nothing came behind it. -/
theorem scan_append_of_isFresh (hrest : rest.IsFresh) (bs : Bytes) :
    scan (bs ++ rest) = scan bs ++ scan rest := by
  fun_induction scan bs with
  | case1 => rfl
  | case2 b bs ih =>
    rw [List.cons_append, scan, next_append hrest, ih]
    rfl

/-- A byte of ASCII is a character by itself. -/
theorem next_ascii {b : UInt8} (h : b.toNat < 0x80) (bs : Bytes) :
    next b bs = (some (Char.ofNat b.toNat), bs) := by
  have hlead : lead? b = some ⟨b.toNat, []⟩ := if_pos h
  exact next_eq hlead rfl

/-- A stream can be decoded in two parts at a byte of ASCII. -/
theorem decodeLossy_append_ascii {b : UInt8} (h : b.toNat < 0x80) (before after : Bytes) :
    decodeLossy (before ++ b :: after) =
      decodeLossy before ++ Char.ofNat b.toNat :: decodeLossy after := by
  have hfresh : Bytes.IsFresh (b :: after) := by
    intro first hfirst
    rw [List.head?_cons, Option.mem_some] at hfirst
    rwa [← hfirst]
  unfold decodeLossy
  rw [scan_append_of_isFresh hfresh, scan, next_ascii h, List.map_append]
  rfl

/-! ## Finding a character of ASCII -/

/-- What remains behind announced bytes is the end of the bytes. -/
theorem follow_isSuffix (code : Nat) (ranges : List (Nat × Nat)) (bs : Bytes) :
    (follow code ranges bs).2 <:+ bs := by
  induction ranges generalizing code bs with
  | nil => exact List.suffix_refl bs
  | cons r ranges ih =>
    cases bs with
    | nil => exact List.suffix_refl []
    | cons b rest =>
      unfold follow
      split
      · exact List.IsSuffix.trans (ih _ rest) (List.suffix_cons b rest)
      · exact List.suffix_refl _

/-- What remains behind a character is the end of the bytes. -/
theorem next_isSuffix (b : UInt8) (bs : Bytes) : (next b bs).2 <:+ bs := by
  unfold next
  split
  · exact List.suffix_refl bs
  · apply follow_isSuffix

/-- A number that is the code of no character counts as zero. -/
theorem toNat_ofNat (n : Nat) : (Char.ofNat n).toNat = n ∨ (Char.ofNat n).toNat = 0 := by
  unfold Char.ofNat
  split
  · exact Or.inl rfl
  · exact Or.inr rfl

variable {c : Char}

/-- Neither a broken part nor a character of more than one byte shows as one of ASCII. -/
theorem next_of_getD_eq (hpos : 0 < c.toNat) (hc : c.toNat < 0x80) {b : UInt8} {bs : Bytes}
    (h : (next b bs).1.getD replacement = c) :
    b = UInt8.ofNat c.toNat ∧ (next b bs).2 = bs := by
  have hbroken : replacement ≠ c := by
    rintro rfl
    exact absurd hc (by decide)
  unfold next at h ⊢
  cases hl : lead? b with
  | none =>
    rw [hl] at h
    exact absurd h hbroken
  | some l =>
    rw [hl] at h
    dsimp only at h ⊢
    rcases lead?_cases hl with ⟨hb, rfl⟩ | hlong
    · have hchar : Char.ofNat b.toNat = c := h
      have hcode : c.toNat = b.toNat := by
        have := toNat_ofNat b.toNat
        rw [hchar] at this
        omega
      rw [hcode, UInt8.ofNat_toNat]
      exact ⟨rfl, rfl⟩
    · cases hfollow : (follow l.bits l.ranges bs).1 with
      | none =>
        rw [hfollow] at h
        exact absurd h hbroken
      | some code =>
        have hle := hlong.le_follow hfollow
        rw [hfollow] at h
        have hchar : Char.ofNat code = c := h
        have hcode := toNat_ofNat code
        rw [hchar] at hcode
        omega

/-- A character of ASCII that is read stands among the bytes. -/
theorem exists_of_decodeLossy_eq (hpos : 0 < c.toNat) (hc : c.toNat < 0x80) {bs : Bytes}
    {s t : Text} (h : decodeLossy bs = s ++ c :: t) :
    ∃ before after, bs = before ++ UInt8.ofNat c.toNat :: after ∧ decodeLossy after = t := by
  unfold decodeLossy at h
  fun_induction scan bs generalizing s with
  | case1 => simp at h
  | case2 b bs ih =>
    rw [List.map_cons] at h
    cases s with
    | nil =>
      obtain ⟨hfirst, hlater⟩ := List.cons.inj h
      obtain ⟨rfl, hrest⟩ := next_of_getD_eq hpos hc hfirst
      rw [hrest] at hlater
      exact ⟨[], bs, rfl, hlater⟩
    | cons d s =>
      obtain ⟨before, after, hrest, hafter⟩ := ih (List.cons.inj h).2
      obtain ⟨taken, htaken⟩ := next_isSuffix b bs
      refine ⟨b :: taken ++ before, after, ?_, hafter⟩
      rw [List.append_assoc, ← hrest, List.cons_append, htaken]

/-- Every byte shows in the decoded text. -/
theorem decodeLossy_eq_nil_iff {bs : Bytes} : decodeLossy bs = [] ↔ bs = [] := by
  cases bs with
  | nil => simp [decodeLossy, scan]
  | cons b bs => simp [decodeLossy, scan]

end Utf8

/-! ## Lines of bytes and lines of text -/

namespace Bytes

/-- A line feed in the decoded text was one in the bytes. -/
theorem lineFeed_mem_of_mem_decodeLossy {line : Bytes} (h : '\n' ∈ Utf8.decodeLossy line) :
    lineFeed ∈ line := by
  obtain ⟨s, t, hsplit⟩ := List.append_of_mem h
  obtain ⟨before, after, rfl, -⟩ :=
    Utf8.exists_of_decodeLossy_eq (c := '\n') (by decide) (by decide) hsplit
  exact List.mem_append_right before List.mem_cons_self

/-- Decoding the lines of a stream gives the lines of the decoded stream. -/
theorem IsCut.lines_decodeLossy {bytes rest : Bytes} {lines : List Bytes}
    (h : bytes.IsCut lines rest) :
    (Utf8.decodeLossy bytes).lines = lines.map Utf8.decodeLossy ++ [Utf8.decodeLossy rest] := by
  obtain ⟨rfl, hterminated, hunfinished⟩ := h
  induction lines with
  | nil => exact Text.lines_of_notMem (mt lineFeed_mem_of_mem_decodeLossy hunfinished)
  | cons line lines ih =>
    have hline := hterminated line List.mem_cons_self
    have hlater := ih fun l hl => hterminated l (List.mem_cons_of_mem line hl)
    have hbytes : (line :: lines).flatMap (· ++ [10]) ++ rest =
        line ++ 10 :: (lines.flatMap (· ++ [10]) ++ rest) := by simp
    rw [hbytes, Utf8.decodeLossy_append_ascii (by decide)]
    show Text.lines (Utf8.decodeLossy line ++ '\n' :: _) = _
    rw [Text.lines_append (mt lineFeed_mem_of_mem_decodeLossy hline), hlater]
    rfl

/-- It does not matter whether the carriage return goes before the decoding or after it. -/
theorem chopReturn_decodeLossy (line : Bytes) :
    (Utf8.decodeLossy line).chopReturn = line.lineText := by
  by_cases hlast : line.getLast? = some 13
  · obtain ⟨before, rfl⟩ := List.getLast?_eq_some_iff.1 hlast
    have hdecode : Utf8.decodeLossy (before ++ [13]) = Utf8.decodeLossy before ++ ['\r'] := by
      rw [Utf8.decodeLossy_append_ascii (by decide), Utf8.decodeLossy_eq_nil_iff.2 rfl]
      rfl
    rw [hdecode, lineText_append_return]
    simp [Text.chopReturn]
  · rw [lineText_of_getLast?_ne hlast]
    apply if_neg
    intro hreturn
    obtain ⟨s, hs⟩ := List.getLast?_eq_some_iff.1 hreturn
    obtain ⟨before, after, rfl, hafter⟩ :=
      Utf8.exists_of_decodeLossy_eq (c := '\r') (by decide) (by decide) hs
    rw [Utf8.decodeLossy_eq_nil_iff] at hafter
    subst hafter
    exact hlast (by simp)

end Bytes

/-- The lines of a stream are those of its text, without the last one if that is empty. -/
theorem Text.streamLines_of_lines {t last : Text} {ls : List Text} (h : t.lines = ls ++ [last]) :
    t.streamLines = ls.map chopReturn ++ (if last = [] then [] else [last.chopReturn]) := by
  unfold streamLines
  rw [h, List.getLast?_concat, List.dropLast_concat]
  by_cases hlast : last = []
  · simp [hlast]
  · simp [hlast]

/-- Reading a whole stream line by line is cutting the decoded stream. -/
theorem Lines.ofStream_eq (bytes : Bytes) :
    ofStream bytes = (Utf8.decodeLossy bytes).streamLines := by
  have hlines := (Bytes.isCut_splitLines bytes).lines_decodeLossy
  have hmap : ∀ lines : List Bytes, (lines.map Utf8.decodeLossy).map Text.chopReturn =
      lines.map Bytes.lineText := by
    intro lines
    rw [List.map_map]
    exact List.map_congr_left fun line _ => Bytes.chopReturn_decodeLossy line
  unfold ofStream
  rw [Text.streamLines_of_lines hlines, hmap, Bytes.chopReturn_decodeLossy]
  by_cases hrest : (Bytes.splitLines bytes).2 = []
  · simp [hrest, Utf8.decodeLossy_eq_nil_iff]
  · simp [hrest, Utf8.decodeLossy_eq_nil_iff]

namespace Splitter

/-- All lines that a new splitter hands out of a stream are the lines of the stream. -/
theorem pushAll_finish (chunks : List Bytes) :
    (empty.pushAll chunks).1 ++ (empty.pushAll chunks).2.finish.1.toList =
      Lines.ofStream chunks.flatten := by
  rw [pushAll_empty]
  show (Bytes.splitLines chunks.flatten).1.map Bytes.lineText ++
    (finish ⟨(Bytes.splitLines chunks.flatten).2⟩).1.toList = _
  rw [finish_eq_ite]
  unfold Lines.ofStream
  by_cases hrest : (Bytes.splitLines chunks.flatten).2 = []
  · simp [hrest]
  · simp [hrest]

/-- Lines that are written one after the other come back, whatever each of them ends in. -/
theorem pushAll_rows {rows : List (Text × LineEnding)}
    (hrows : ∀ row ∈ rows, '\n' ∉ row.1 ∧ row.1.getLast? ≠ some '\r') {chunks : List Bytes}
    (hchunks : chunks.flatten = rows.flatMap fun row => row.1.bytes ++ row.2.bytes) :
    empty.pushAll chunks = (rows.map Prod.fst, empty) := by
  induction rows generalizing chunks with
  | nil =>
    rw [pushAll_empty, hchunks]
    rfl
  | cons row rows ih =>
    obtain ⟨hfeed, hreturn⟩ := hrows row List.mem_cons_self
    have hending : [row.1.bytes ++ row.2.bytes].flatten = row.1.bytes ++ [lineFeed] ∨
        [row.1.bytes ++ row.2.bytes].flatten = row.1.bytes ++ [carriageReturn, lineFeed] := by
      rw [List.flatten_singleton]
      cases row.2 with
      | feed => exact Or.inl rfl
      | returnFeed => exact Or.inr rfl
    have hfirst := pushAll_line hfeed hreturn hending
    have hlater := ih (fun r hr => hrows r (List.mem_cons_of_mem row hr))
      (List.flatten_singleton (l := rows.flatMap fun row => row.1.bytes ++ row.2.bytes))
    -- the stream may as well come as two chunks, the row and what follows it
    have htwo : chunks.flatten = [row.1.bytes ++ row.2.bytes,
        rows.flatMap fun row => row.1.bytes ++ row.2.bytes].flatten := by
      rw [hchunks]
      simp
    rw [pushAll_empty, List.flatten_singleton] at hfirst
    rw [pushAll_empty, htwo, ← pushAll_empty, pushAll_cons, hfirst, hlater]
    rfl

/-- However a stream comes in chunks and whatever its bytes are, the lines that a new splitter hands
out, the open one at the end included, are those of the decoded stream: the pieces between its line
feeds, without the last one if it is empty, and each without a carriage return at its end.  So lines
that are written one after the other, each with a line feed or with a carriage return and a line
feed behind it, come back as they were. -/
theorem lines_lossy (chunks : List Bytes) :
    let out := empty.pushAll chunks
    out.1 ++ out.2.finish.1.toList = (Utf8.decodeLossy chunks.flatten).streamLines ∧
    Lines.ofStream chunks.flatten = (Utf8.decodeLossy chunks.flatten).streamLines ∧
    ∀ rows : List (Text × LineEnding),
      (∀ row ∈ rows, '\n' ∉ row.1 ∧ row.1.getLast? ≠ some '\r') →
      chunks.flatten = rows.flatMap (fun row => row.1.bytes ++ row.2.bytes) →
      out = (rows.map Prod.fst, empty) ∧
        (Utf8.decodeLossy chunks.flatten).streamLines = rows.map Prod.fst := by
  intro out
  have hwhole : out.1 ++ out.2.finish.1.toList = Lines.ofStream chunks.flatten :=
    pushAll_finish chunks
  have hdecoded := Lines.ofStream_eq chunks.flatten
  refine ⟨hwhole.trans hdecoded, hdecoded, ?_⟩
  intro rows hrows hchunks
  have hout : out = (rows.map Prod.fst, empty) := pushAll_rows hrows hchunks
  refine ⟨hout, ?_⟩
  rw [← hdecoded, ← hwhole, hout]
  exact List.append_nil _

/-- A character that breaks off before a line feed, a line feed inside a broken character, and a
carriage return at the end of the stream; and a stream of two lines that is cut inside of a
character and between the two bytes behind it. -/
theorem lines_lossy_broken :
    (empty.pushAll [[0xE2, 0x82], [10, 0xF0, 10, 0x9F], [13, 10, 13]]).1 ++
        (empty.pushAll [[0xE2, 0x82], [10, 0xF0, 10, 0x9F], [13, 10, 13]]).2.finish.1.toList =
      ["\uFFFD".toList, "\uFFFD".toList, "\uFFFD".toList, []] ∧
    empty.pushAll [[0xC3], [0xA9, 13], [10, 10]] = (["é".toList, []], empty) := by
  constructor
  · exact (lines_lossy [[0xE2, 0x82], [10, 0xF0, 10, 0x9F], [13, 10, 13]]).1.trans (by cbv)
  · have hrows := (lines_lossy [[0xC3], [0xA9, 13], [10, 10]]).2.2
      [("é".toList, LineEnding.returnFeed), ([], LineEnding.feed)] (by decide) (by decide)
    exact hrows.1

end Splitter

end ScriptWorkbench
