import ScriptWorkbench.Lexeme.Cursor
import ScriptWorkbench.Proofs.Lexeme.Shape
import ScriptWorkbench.Proofs.Text.Encoding

/-!
# Cutting by byte offsets and by characters

The cursor that goes over the bytes of a script stops only between characters and moves on with
every token, and it finds the tokens of `Lexeme.tokenize` (`Cursor.tokenize_eq`).
-/

set_option autoImplicit false

namespace ScriptWorkbench

namespace Text

/-! ## Looking for characters and patterns -/

/-- Up to the first character of a class, or up to the end, stands a run of other characters. -/
theorem findChar?_getD (q : Char → Bool) (t : Text) :
    (findChar? q t).getD t.byteSize = byteSize (t.takeWhile fun c => !q c) := by
  induction t with
  | nil => rfl
  | cons c t ih =>
    rw [findChar?]
    cases hc : q c with
    | true => simp [hc]
    | false =>
      simp only [hc, Bool.not_false, List.takeWhile_cons_of_pos, byteSize_cons, ← ih]
      cases findChar? q t <;> simp

end Text

namespace Lexeme.Cursor

/-! ## Classes of bytes -/

/-- Whitespace is the same by characters and by bytes. -/
theorem isAsciiClass_blank : IsAsciiClass isBlank isBlankByte where
  char := by
    intro c hc
    simp only [isBlank, Bool.or_eq_true, decide_eq_true_eq] at hc
    rcases hc with ((((rfl | rfl) | rfl) | rfl) | rfl) | rfl <;> decide
  byte := by
    intro b hb
    simp only [isBlankByte, Bool.or_eq_true, decide_eq_true_eq] at hb
    rcases hb with ((((rfl | rfl) | rfl) | rfl) | rfl) | rfl <;> decide
  agree := by decide +kernel

/-- Separators are the same by characters and by bytes. -/
theorem isAsciiClass_separator : IsAsciiClass isSeparator isSeparatorByte where
  char := by
    intro c hc
    simp only [isSeparator, Bool.or_eq_true, decide_eq_true_eq] at hc
    rcases hc with ((rfl | rfl) | rfl) | hc
    · decide
    · decide
    · decide
    · exact isAsciiClass_blank.char c hc
  byte := by
    intro b hb
    simp only [isSeparatorByte, Bool.or_eq_true, decide_eq_true_eq] at hb
    rcases hb with ((rfl | rfl) | rfl) | hb
    · decide
    · decide
    · decide
    · exact isAsciiClass_blank.byte b hb
  agree := by decide +kernel

/-- The class of one ASCII character is the class of its byte. -/
theorem isAsciiClass_single {d : Char} (hd : d.toNat < 128) :
    IsAsciiClass (fun c => c = d) (fun b => b = UInt8.ofNat d.toNat) where
  char := by
    intro c hc
    rw [of_decide_eq_true hc]
    exact hd
  byte := by
    intro b hb
    rw [of_decide_eq_true hb, UInt8.toNat_ofNat_of_lt' (show d.toNat < 256 by omega)]
    exact hd
  agree := by
    have hcode : ∀ n < 128, (Char.ofNat n).toNat = n := by decide
    intro n hn
    rw [decide_eq_decide]
    constructor
    · intro h
      have hn' := congrArg UInt8.toNat h
      rw [UInt8.toNat_ofNat_of_lt' (show n < 256 by omega),
        UInt8.toNat_ofNat_of_lt' (show d.toNat < 256 by omega)] at hn'
      rw [hn', Char.ofNat_toNat]
    · rintro rfl
      rw [hcode n hn]

/-! ## Where tokens end -/

/-- Skipping bytes goes to the end of the run of bytes that are kept. -/
theorem skipWhile_eq (keep : UInt8 → Bool) {input : Bytes} {pos : Nat} (h : pos ≤ input.length) :
    skipWhile keep input pos = pos + ((input.drop pos).takeWhile keep).length := by
  fun_induction skipWhile keep input pos with
  | case1 pos hpos hkeep ih =>
    rw [ih hpos, List.drop_eq_getElem_cons hpos, List.takeWhile_cons_of_pos hkeep,
      List.length_cons]
    omega
  | case2 pos hpos hkeep =>
    rw [List.drop_eq_getElem_cons hpos, List.takeWhile_cons_of_neg hkeep]
    rfl
  | case3 pos hpos =>
    rw [List.drop_eq_nil_of_le (Nat.le_of_not_lt hpos)]
    rfl

/-- A run of bytes ends where the run of characters ends. -/
theorem skipWhile_bytes {q : Char → Bool} {keep : UInt8 → Bool}
    (h : ∀ c, ∀ b ∈ String.utf8EncodeChar c, keep b = q c) (before t : Text) :
    skipWhile keep (before ++ t).bytes before.byteSize =
      before.byteSize + Text.byteSize (t.takeWhile q) := by
  have hpos : before.byteSize ≤ (before ++ t).bytes.length := by
    rw [Text.length_bytes, Text.byteSize_append]
    exact Nat.le_add_right _ _
  rw [skipWhile_eq keep hpos, Text.drop_bytes_append, Text.takeWhile_bytes h, Text.length_bytes]

/-- A block comment ends behind the first closer. -/
theorem find?_closer (t : Text) :
    ((Text.find? ['*', '/'] t).map (· + 2)).getD t.byteSize = Text.byteSize (throughClose t) := by
  fun_induction throughClose t with
  | case1 r =>
    rw [Text.find?, if_pos ⟨r, rfl⟩]
    rfl
  | case2 c t hnone ih =>
    have hno : ¬ ['*', '/'] <+: c :: t := by
      rintro ⟨r, hr⟩
      obtain ⟨rfl, rfl⟩ := List.cons.inj hr
      exact hnone r rfl rfl
    rw [Text.find?, if_neg hno, Text.byteSize_cons, Text.byteSize_cons, ← ih]
    cases Text.find? ['*', '/'] t <;> simp [Nat.add_assoc]
  | case3 => rfl

/-! ## What opens a token -/

/-- Behind a part of a text stand the bytes of the rest. -/
theorem getElem?_bytes_append (before t : Text) (i : Nat) :
    (before ++ t).bytes[before.byteSize + i]? = t.bytes[i]? := by
  rw [← Text.drop_bytes_append before t, List.getElem?_drop]

/-- The first byte of a text is one of its first character. -/
theorem exists_first (c : Char) (t : Text) :
    ∃ b ∈ String.utf8EncodeChar c, (Text.bytes (c :: t))[0]? = some b := by
  rw [Text.bytes_cons]
  cases hencode : String.utf8EncodeChar c with
  | nil => exact absurd hencode String.utf8EncodeChar_ne_nil
  | cons b bs => exact ⟨b, List.mem_cons_self, rfl⟩

/-- A byte of ASCII stands first exactly if its character does. -/
theorem first_eq_iff {d : Char} (hd : d.toNat < 128) (t : Text) :
    t.bytes[0]? = some (UInt8.ofNat d.toNat) ↔ t.head? = some d := by
  cases t with
  | nil => simp [Text.bytes]
  | cons c t =>
    obtain ⟨b, hb, hfirst⟩ := exists_first c t
    have hclass := (isAsciiClass_single hd).mem_utf8EncodeChar hb
    rw [hfirst]
    simpa using hclass

/-- Two ASCII characters open a text exactly if their bytes do. -/
theorem opens_iff {d e : Char} (hd : d.toNat < 128) (he : e.toNat < 128) (t : Text) :
    t.bytes[0]? = some (UInt8.ofNat d.toNat) ∧ t.bytes[1]? = some (UInt8.ofNat e.toNat) ↔
      [d, e] <+: t := by
  rw [first_eq_iff hd]
  cases t with
  | nil => simp
  | cons c t =>
    rw [List.cons_prefix_cons, List.head?_cons, Option.some.injEq, eq_comm]
    refine and_congr_right ?_
    rintro rfl
    have hbytes : (Text.bytes (d :: t))[1]? = (Text.bytes t)[0]? := by
      rw [Text.bytes_cons, utf8EncodeChar_ascii hd]
      rfl
    rw [hbytes, first_eq_iff he]
    cases t <;> simp [List.cons_prefix_cons, eq_comm]

/-! ## One token -/

/-- A slice at two boundaries does not fail. -/
@[simp]
theorem slice_some_bind {α β : Type} (cut : α) (f : α → Except Halt β) :
    (slice (some cut) >>= f) = f cut := rfl

/-- The cursor finds the end of a line comment. -/
theorem lineCommentEnd_eq (before t : Text) :
    lineCommentEnd (before ++ t) before.byteSize =
      .ok (before.byteSize + Text.byteSize (Shape.lineComment.cover t)) := by
  rw [lineCommentEnd, Text.sliceFrom?_append, slice_some_bind, Text.findChar?_getD]
  rfl

/-- The cursor finds the end of a block comment. -/
theorem blockCommentEnd_eq (before : Text) {t : Text} (ht : blockOpener <+: t) :
    blockCommentEnd (before ++ t) before.byteSize =
      .ok (before.byteSize + Text.byteSize (Shape.blockComment.cover t)) := by
  obtain ⟨body, rfl⟩ := ht
  have hopener : Text.byteSize blockOpener = 2 := rfl
  have hbody := Text.sliceFrom?_append (before ++ blockOpener) body
  rw [List.append_assoc, Text.byteSize_append, hopener] at hbody
  have hcloser := find?_closer body
  rw [blockCommentEnd, hbody, slice_some_bind, cover_blockComment, Text.byteSize_append, hopener,
    ← hcloser]
  cases Text.find? ['*', '/'] body with
  | some n =>
    simp only [Option.map_some, Option.getD_some, ← Nat.add_assoc]
    rfl
  | none =>
    simp only [Option.map_none, Option.getD_none, Text.length_bytes, Text.byteSize_append, hopener]
    rfl

/-- The byte of a semicolon is the bytes of a semicolon only. -/
theorem bytes_eq_semicolon_iff (u : Text) : u.bytes = [semicolon] ↔ u = [';'] := by
  constructor
  · intro h
    have hsize := Text.length_bytes u
    rw [h] at hsize
    have hlength := Text.length_le_byteSize u
    have hhead := (first_eq_iff (d := ';') (by decide) u).1 (by rw [h]; rfl)
    cases u with
    | nil => cases hhead
    | cons c t =>
      obtain rfl : c = ';' := Option.some.inj hhead
      rw [List.length_cons, ← hsize, List.length_singleton] at hlength
      rw [List.length_eq_zero_iff.1 (Nat.le_zero.1 (Nat.le_of_succ_le_succ hlength))]
  · rintro rfl
    rfl

/-- The cursor classifies a run of separators as its characters say. -/
theorem separatorClass_eq (table : KeywordTable) (before u after : Text) :
    separatorClass (before ++ (u ++ after)) before.byteSize (before.byteSize + u.byteSize) =
      .ok (Shape.separators.classify table u) := by
  rw [separatorClass, Text.slice?_bytes_append, slice_some_bind, Shape.classify,
    Text.all_bytes fun _ _ => isAsciiClass_blank.mem_utf8EncodeChar]
  simp only [bytes_eq_semicolon_iff]
  rfl

/-- The cursor classifies a word as its characters say. -/
theorem wordClass_eq (table : KeywordTable) (before u after : Text) :
    wordClass table (before ++ (u ++ after)) before.byteSize (before.byteSize + u.byteSize) =
      .ok (Shape.word.classify table u) := by
  rw [wordClass, Text.slice?_append, slice_some_bind]
  rfl

/-- The first byte of a text tells whether a separator opens it. -/
theorem first_isSeparator_iff {t : Text} {first : UInt8} (h : t.bytes[0]? = some first) :
    isSeparatorByte first = true ↔ ∃ c ∈ t.head?, c ∈ separatorChars := by
  cases t with
  | nil => cases h
  | cons c t =>
    obtain ⟨b, hb, hfirst⟩ := exists_first c t
    rw [hfirst, Option.some.injEq] at h
    rw [← h, isAsciiClass_separator.mem_utf8EncodeChar hb, isSeparator_iff]
    simp

/-- At the beginning of a token the cursor finds its class and its end. -/
theorem next_eq (table : KeywordTable) (before : Text) {t : Text} {first : UInt8}
    (hfirst : (before ++ t).bytes[before.byteSize]? = some first) :
    next table (before ++ t) before.byteSize first =
      .ok ((Shape.of t).classify table (lexeme t), before.byteSize + (lexeme t).byteSize) := by
  have hhead : t.bytes[0]? = some first := by
    rw [← hfirst, ← getElem?_bytes_append before t 0]
    rfl
  have ht : t ≠ [] := by
    rintro rfl
    cases hhead
  have hsecond := getElem?_bytes_append before t 1
  have hline : first = slash ∧ t.bytes[1]? = some slash ↔ Shape.of t = .lineComment := by
    rw [Shape.of_eq_iff ht, Shape.Opens, lineOpener, ← opens_iff (by decide) (by decide) t, hhead,
      Option.some.injEq]
    rfl
  have hblock : first = slash ∧ t.bytes[1]? = some asterisk ↔ Shape.of t = .blockComment := by
    rw [Shape.of_eq_iff ht, Shape.Opens, blockOpener, ← opens_iff (by decide) (by decide) t, hhead,
      Option.some.injEq]
    rfl
  have hseparators : isSeparatorByte first = true ↔ Shape.of t = .separators := by
    rw [Shape.of_eq_iff ht]
    exact first_isSeparator_iff hhead
  simp only [next, hsecond, hline, hblock, hseparators]
  obtain ⟨after, hafter⟩ := lexeme_isPrefix t
  unfold lexeme at hafter ⊢
  cases hs : Shape.of t with
  | lineComment =>
    rw [if_pos rfl, lineCommentEnd_eq]
    rfl
  | blockComment =>
    rw [if_neg (by decide), if_pos rfl,
      blockCommentEnd_eq before ((Shape.of_eq_iff ht .blockComment).1 hs)]
    rfl
  | separators =>
    have hstop : skipWhile isSeparatorByte (before ++ t).bytes before.byteSize =
        before.byteSize + (Shape.separators.cover t).byteSize :=
      skipWhile_bytes (fun _ _ => isAsciiClass_separator.mem_utf8EncodeChar) before t
    have hkind := separatorClass_eq table before (Shape.separators.cover t) after
    rw [hs] at hafter
    rw [hafter] at hkind
    rw [if_neg (by decide), if_neg (by decide), if_pos rfl, hstop, hkind]
    rfl
  | word =>
    have hstop : skipWhile (fun b => !isSeparatorByte b) (before ++ t).bytes before.byteSize =
        before.byteSize + (Shape.word.cover t).byteSize :=
      skipWhile_bytes
        (fun _ _ hb => congrArg not (isAsciiClass_separator.mem_utf8EncodeChar hb)) before t
    have hkind := wordClass_eq table before (Shape.word.cover t) after
    rw [hs] at hafter
    rw [hafter] at hkind
    rw [if_neg (by decide), if_neg (by decide), if_neg (by decide), hstop, hkind]
    rfl

/-! ## All tokens -/

/-- The cursor never cuts a character, moves on with every token and finds the tokens of the text
behind it. -/
theorem tokensFrom_eq (table : KeywordTable) (before t : Text) :
    tokensFrom table (before ++ t) before.byteSize =
      .ok (Lexeme.tokensFrom table before.byteSize t) := by
  induction hoffset : before.byteSize, t using token_induction generalizing before with
  | nil offset =>
    rw [tokensFrom, dif_neg (by simp [Text.length_bytes, hoffset]), tokensFrom_nil]
    rfl
  | cons offset t ht ih =>
    subst hoffset
    have hsize := Text.byteSize_pos ht
    have hlexeme := Text.byteSize_pos (lexeme_ne_nil ht)
    have hpos : before.byteSize < (before ++ t).bytes.length := by
      rw [Text.length_bytes, Text.byteSize_append]
      omega
    have hnext := next_eq table before (List.getElem?_eq_getElem hpos)
    have htext := Text.slice?_append before (lexeme t) (remainder t)
    rw [lexeme_append_remainder] at htext
    have hlater := ih (before ++ lexeme t) (Text.byteSize_append _ _)
    rw [List.append_assoc, lexeme_append_remainder] at hlater
    rw [tokensFrom, dif_pos hpos, hnext, tokensFrom_of_ne_nil ht]
    change (slice _ >>= _) = _
    rw [htext, slice_some_bind, if_pos (Nat.lt_add_of_pos_right hlexeme), hlater]
    rfl

/-- The cursor never fails, and it cuts every script into its tokens. -/
theorem tokenize_eq (table : KeywordTable) (source : Text) :
    tokenize table source = .ok (Lexeme.tokenize table source) :=
  tokensFrom_eq table [] source

end Lexeme.Cursor

end ScriptWorkbench
