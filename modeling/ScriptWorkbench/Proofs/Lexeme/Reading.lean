import ScriptWorkbench.Proofs.Lexeme.Partition

/-!
# Tokens by the grammar

The first token of a text is the one that the lexical grammar reads there, and the grammar reads no
other (`reads_iff`), so that the tokens of a text are the only row of tokens that it reads
(`readsAll_iff`).  What stands behind a token follows from that: words and runs of separators are as
long as they can be, so two of a kind are never neighbours, and no comment opens inside a word or
right behind it (`tokenize_reads`).
-/

set_option autoImplicit false

namespace ScriptWorkbench.Lexeme

variable {table : KeywordTable}

/-! ## Classes -/

/-- Separators are blank unless they are parentheses or semicolons. -/
theorem all_isBlank_iff {u : Text} (hu : IsSeparators u) :
    u.all isBlank = true ↔ '(' ∉ u ∧ ')' ∉ u ∧ ';' ∉ u := by
  rw [List.all_eq_true]
  constructor
  · intro h
    refine ⟨fun hmem => ?_, fun hmem => ?_, fun hmem => ?_⟩ <;>
      exact absurd (h _ hmem) (by decide)
  · rintro ⟨hopen, hclose, hsemicolon⟩ c hc
    have hseparator := (isSeparator_iff c).2 (hu c hc)
    simp only [isSeparator, Bool.or_eq_true, decide_eq_true_eq] at hseparator
    rcases hseparator with ((rfl | rfl) | rfl) | hblank
    · exact absurd hc hopen
    · exact absurd hc hclose
    · exact absurd hc hsemicolon
    · exact hblank

/-- The class that the grammar gives a run of separators is the one that the cutting gives it. -/
theorem separatorClass_iff {u : Text} (hu : IsSeparators u) (k : TokenClass) :
    SeparatorClass u k ↔ k = Shape.separators.classify table u := by
  have hblank := all_isBlank_iff hu
  constructor
  · intro h
    cases h with
    | semicolon => rfl
    | blank hopen hclose hsemicolon =>
      have hne : u ≠ [';'] := by
        rintro rfl
        exact hsemicolon List.mem_cons_self
      rw [Shape.classify, if_neg hne, if_pos (hblank.2 ⟨hopen, hclose, hsemicolon⟩)]
    | other hmixed hne =>
      have hnot : ¬ u.all isBlank = true := by
        intro hall
        obtain ⟨hopen, hclose, hsemicolon⟩ := hblank.1 hall
        rcases hmixed with h | h | h
        · exact hopen h
        · exact hclose h
        · exact hsemicolon h
      rw [Shape.classify, if_neg hne, if_neg hnot]
  · rintro rfl
    rw [Shape.classify]
    split
    · rename_i heq
      rw [heq]
      exact .semicolon
    · rename_i hne
      split
      · rename_i hall
        obtain ⟨hopen, hclose, hsemicolon⟩ := hblank.1 hall
        exact .blank hopen hclose hsemicolon
      · rename_i hall
        rw [hblank] at hall
        simp only [Decidable.not_and_iff_not_or_not, Decidable.not_not] at hall
        exact .other hall hne

/-- The class that the grammar gives a word is the one that the cutting gives it. -/
theorem wordClass_iff (u : Text) (k : TokenClass) :
    WordClass table u k ↔ k = Shape.word.classify table u := by
  have hkeyword : table.isKeyword u = true ↔ u ∈ table := List.contains_iff_mem
  constructor
  · intro h
    cases h with
    | keyword h => rw [Shape.classify, if_pos (hkeyword.2 h)]
    | other h => rw [Shape.classify, if_neg (mt hkeyword.1 h)]
  · rintro rfl
    rw [Shape.classify]
    split
    · rename_i h
      exact .keyword (hkeyword.1 h)
    · rename_i h
      exact .other (mt hkeyword.2 h)

/-! ## One token -/

/-- The first token of a text covers what its shape covers. -/
theorem lexeme_of_shape {t : Text} {s : Shape} (hs : Shape.of t = s) : lexeme t = s.cover t := by
  rw [lexeme, hs]

/-- The grammar reads the first token of a text and nothing else. -/
theorem reads_iff {t : Text} (ht : t ≠ []) (u : Text) (k : TokenClass) :
    Reads table t u k ↔ u = lexeme t ∧ k = (Shape.of t).classify table (lexeme t) := by
  constructor
  · intro h
    cases h with
    | lineComment hopen h =>
      have hs := (Shape.of_eq_iff ht .lineComment).2 hopen
      rw [hs, lexeme_of_shape hs]
      exact ⟨h.unique (isLongest_lineComment t), rfl⟩
    | closedComment hopen h =>
      have hs := (Shape.of_eq_iff ht .blockComment).2 hopen
      rw [hs, lexeme_of_shape hs]
      rcases cover_blockComment_cases hopen with hclosed | ⟨-, hnone⟩
      · exact ⟨h.unique hclosed, rfl⟩
      · exact absurd h.2.1 (hnone u h.1)
    | openComment hopen h hall =>
      have hs := (Shape.of_eq_iff ht .blockComment).2 hopen
      rw [hs, lexeme_of_shape hs]
      rcases cover_blockComment_cases hopen with hclosed | ⟨hcover, -⟩
      · exact absurd hclosed.2.1 (h _ hclosed.1)
      · exact ⟨hall.trans hcover.symm, rfl⟩
    | separators hfirst h hclass =>
      have hs := (Shape.of_eq_iff ht .separators).2 hfirst
      rw [hs, lexeme_of_shape hs]
      obtain rfl := h.unique (isLongest_separators t)
      exact ⟨rfl, (separatorClass_iff h.2.1 k).1 hclass⟩
    | word hline hblock hfirst h hclass =>
      have hs := (Shape.of_eq_iff ht .word).2 ⟨hline, hblock, hfirst⟩
      rw [hs, lexeme_of_shape hs]
      obtain rfl := h.unique (isLongest_word t)
      exact ⟨rfl, (wordClass_iff _ k).1 hclass⟩
  · rintro ⟨rfl, rfl⟩
    have hopens := (Shape.of_eq_iff ht (Shape.of t)).1 rfl
    cases hs : Shape.of t with
    | lineComment =>
      rw [hs] at hopens
      rw [lexeme_of_shape hs]
      exact .lineComment hopens (isLongest_lineComment t)
    | blockComment =>
      rw [hs] at hopens
      rw [lexeme_of_shape hs]
      rcases cover_blockComment_cases hopens with hclosed | ⟨hcover, hnone⟩
      · exact .closedComment hopens hclosed
      · exact .openComment hopens hnone hcover
    | separators =>
      rw [hs] at hopens
      rw [lexeme_of_shape hs]
      have hlongest := isLongest_separators t
      exact .separators hopens hlongest ((separatorClass_iff hlongest.2.1 _).2 rfl)
    | word =>
      rw [hs] at hopens
      obtain ⟨hline, hblock, hfirst⟩ := hopens
      rw [lexeme_of_shape hs]
      exact .word hline hblock hfirst (isLongest_word t) ((wordClass_iff _ _).2 rfl)

/-! ## All tokens -/

/-- There is one row of tokens that the grammar reads from a text. -/
theorem readsAll_iff (offset : Nat) (t : Text) (row : List Token) :
    ReadsAll table offset t row ↔ row = tokensFrom table offset t := by
  constructor
  · intro h
    induction h with
    | nil offset => rw [tokensFrom_nil]
    | @cons offset u t k row hne h hrow ih =>
      have hwhole : u ++ t ≠ [] := List.append_ne_nil_of_left_ne_nil hne t
      obtain ⟨hu, rfl⟩ := (reads_iff hwhole _ _).1 h
      rw [tokensFrom_of_ne_nil hwhole, tokenAt, remainder, ← hu, List.drop_left, ih]
  · rintro rfl
    induction offset, t using token_induction with
    | nil offset =>
      rw [tokensFrom_nil]
      exact .nil offset
    | cons offset t ht ih =>
      have hread : Reads table (lexeme t ++ remainder t) (lexeme t)
          ((Shape.of t).classify table (lexeme t)) := by
        rw [lexeme_append_remainder]
        exact (reads_iff ht _ _).2 ⟨rfl, rfl⟩
      have hrow := ReadsAll.cons (lexeme_ne_nil ht) hread ih
      rw [lexeme_append_remainder] at hrow
      rw [tokensFrom_of_ne_nil ht]
      exact hrow

/-! ## Shapes of tokens -/

/-- What opens a line comment does not end the line. -/
theorem isUnbroken_lineOpener : IsUnbroken lineOpener := by
  intro c hc
  obtain rfl : c = '/' := by simpa [lineOpener] using hc
  decide

/-- A token opens like the text whose first token it is. -/
theorem shape_lexeme {t : Text} (ht : t ≠ []) : Shape.of (lexeme t) = Shape.of t := by
  have hlexeme := lexeme_ne_nil ht
  have hbegins := lexeme_isPrefix t
  have hhead : (lexeme t).head? = t.head? := by
    obtain ⟨c, u, hu⟩ := List.exists_cons_of_ne_nil hlexeme
    obtain ⟨rest, hrest⟩ := hbegins
    rw [hu] at hrest ⊢
    rw [← hrest]
    rfl
  have hopens := (Shape.of_eq_iff ht (Shape.of t)).1 rfl
  rw [Shape.of_eq_iff hlexeme]
  cases hs : Shape.of t with
  | lineComment =>
    rw [hs] at hopens
    rw [lexeme_of_shape hs]
    have hlongest := isLongest_lineComment t
    exact List.prefix_of_prefix_length_le hopens hlongest.1
      (hlongest.2.2 lineOpener hopens isUnbroken_lineOpener)
  | blockComment =>
    rw [hs] at hopens
    obtain ⟨r, rfl⟩ := hopens
    rw [lexeme_of_shape hs]
    exact List.prefix_append _ _
  | separators =>
    rw [hs] at hopens
    rw [Shape.Opens, hhead]
    exact hopens
  | word =>
    rw [hs] at hopens
    obtain ⟨hline, hblock, hfirst⟩ := hopens
    refine ⟨fun h => hline (h.trans hbegins), fun h => hblock (h.trans hbegins), ?_⟩
    rw [hhead]
    exact hfirst

/-- The first token is a word exactly if a word opens the text. -/
theorem isWord_lexeme_iff {t : Text} (ht : t ≠ []) : IsWord (lexeme t) ↔ Shape.of t = .word := by
  have hlexeme := lexeme_ne_nil ht
  rw [← shape_lexeme ht, Shape.of_eq_iff hlexeme]
  constructor
  · rintro ⟨-, hunseparated, hline, hblock⟩
    obtain ⟨c, u, hu⟩ := List.exists_cons_of_ne_nil hlexeme
    rw [hu] at hunseparated hline hblock ⊢
    exact ⟨hline, hblock, c, rfl, hunseparated c List.mem_cons_self⟩
  · intro hopens
    have hs : Shape.of t = .word := by
      rw [← shape_lexeme ht, Shape.of_eq_iff hlexeme]
      exact hopens
    refine ⟨hlexeme, ?_, hopens.1, hopens.2.1⟩
    rw [lexeme_of_shape hs]
    exact (isLongest_word t).2.1

/-- The first token is a run of separators exactly if a separator opens the text. -/
theorem isSeparators_lexeme_iff {t : Text} (ht : t ≠ []) :
    IsSeparators (lexeme t) ↔ Shape.of t = .separators := by
  have hlexeme := lexeme_ne_nil ht
  constructor
  · intro hseparators
    rw [← shape_lexeme ht, Shape.of_eq_iff hlexeme]
    obtain ⟨c, u, hu⟩ := List.exists_cons_of_ne_nil hlexeme
    rw [hu] at hseparators ⊢
    exact ⟨c, rfl, hseparators c List.mem_cons_self⟩
  · intro hs
    rw [lexeme_of_shape hs]
    exact (isLongest_separators t).2.1

/-- Comments are the tokens that are neither words nor separators. -/
theorem classify_eq_comment_iff {t : Text} (ht : t ≠ []) :
    (Shape.of t).classify table (lexeme t) = .comment ↔
      ¬ IsSeparators (lexeme t) ∧ ¬ IsWord (lexeme t) := by
  rw [isSeparators_lexeme_iff ht, isWord_lexeme_iff ht]
  cases Shape.of t with
  | lineComment => simp [Shape.classify]
  | blockComment => simp [Shape.classify]
  | separators =>
    rw [Shape.classify]
    split
    · simp
    · split <;> simp
  | word =>
    rw [Shape.classify]
    split <;> simp

/-! ## Neighbours -/

/-- A run of a class of characters ends where a character of another class stands. -/
theorem head?_remainder {q : Char → Bool} {t : Text} (h : lexeme t = t.takeWhile q)
    (hne : remainder t ≠ []) : ∃ c ∈ (remainder t).head?, q c = false := by
  have hdrop : remainder t = t.dropWhile q := by
    rw [remainder, h]
    exact List.append_cancel_left (List.prefix_iff_eq_append.1 (List.takeWhile_prefix q)
      |>.trans List.takeWhile_append_dropWhile.symm)
  have hstop := List.head?_dropWhile_not q t
  obtain ⟨c, u, hu⟩ := List.exists_cons_of_ne_nil hne
  rw [← hdrop, hu] at hstop
  rw [hu]
  exact ⟨c, rfl, by simpa using hstop⟩

/-- Behind a word there are separators. -/
theorem shape_remainder_word {t : Text} (hs : Shape.of t = .word) (hne : remainder t ≠ []) :
    Shape.of (remainder t) = .separators := by
  obtain ⟨c, hhead, hc⟩ :=
    head?_remainder (q := fun c => !isSeparator c) (lexeme_of_shape hs) hne
  rw [Shape.of_eq_iff hne]
  exact ⟨c, hhead, (isSeparator_iff c).1 (by simpa using hc)⟩

/-- Behind separators there are none. -/
theorem shape_remainder_separators {t : Text} (hs : Shape.of t = .separators)
    (hne : remainder t ≠ []) : Shape.of (remainder t) ≠ .separators := by
  obtain ⟨c, hhead, hc⟩ := head?_remainder (q := isSeparator) (lexeme_of_shape hs) hne
  rw [Ne, Shape.of_eq_iff hne]
  rintro ⟨d, hd, hseparator⟩
  obtain rfl := Option.mem_unique hhead hd
  rw [← isSeparator_iff, hc] at hseparator
  cases hseparator

variable {source : Text}

/-- What follows a word is a run of separators. -/
theorem isSeparators_of_word {a b : Token} (h : [a, b] <:+: tokenize table source)
    (ha : IsWord a.text) : IsSeparators b.text := by
  obtain ⟨before, rest, -, hrest, hremainder, rfl, rfl⟩ := exists_of_infix_tokensFrom h
  exact (isSeparators_lexeme_iff hremainder).2
    (shape_remainder_word ((isWord_lexeme_iff hrest).1 ha) hremainder)

/-- What follows a run of separators is none. -/
theorem not_isSeparators_of_separators {a b : Token} (h : [a, b] <:+: tokenize table source)
    (ha : IsSeparators a.text) : ¬ IsSeparators b.text := by
  obtain ⟨before, rest, -, hrest, hremainder, rfl, rfl⟩ := exists_of_infix_tokensFrom h
  intro hb
  exact shape_remainder_separators ((isSeparators_lexeme_iff hrest).1 ha) hremainder
    ((isSeparators_lexeme_iff hremainder).1 hb)

/-- A token is a comment exactly if it is neither a run of separators nor a word. -/
theorem kind_eq_comment_iff {k : Token} (h : k ∈ tokenize table source) :
    k.kind = .comment ↔ ¬ IsSeparators k.text ∧ ¬ IsWord k.text := by
  obtain ⟨before, rest, -, hrest, rfl⟩ := exists_of_mem_tokensFrom h
  exact classify_eq_comment_iff hrest

/-- A run of separators is no word. -/
theorem not_isWord_of_isSeparators {u : Text} (h : IsSeparators u) : ¬ IsWord u := by
  rintro ⟨hne, hunseparated, -, -⟩
  obtain ⟨c, v, rfl⟩ := List.exists_cons_of_ne_nil hne
  exact hunseparated c List.mem_cons_self (h c List.mem_cons_self)

/-- A word has no comment for a neighbour behind it. -/
theorem kind_ne_comment_of_word {a b : Token} (h : [a, b] <:+: tokenize table source)
    (ha : IsWord a.text) : b.kind ≠ .comment := by
  intro hb
  have hmem : b ∈ tokenize table source := h.subset (by simp)
  exact ((kind_eq_comment_iff hmem).1 hb).1 (isSeparators_of_word h ha)

/-- A comment begins before a word does, or behind it with something in between. -/
theorem comment_outside_word {w c : Token} (hw : w ∈ tokenize table source) (hword : IsWord w.text)
    (hc : c ∈ tokenize table source) (hcomment : c.kind = .comment) :
    c.offset < w.offset ∨ w.stop < c.offset := by
  obtain ⟨front, back, hsplit⟩ := List.append_of_mem hw
  have hpairs := pairwise_tokensFrom table 0 source
  rw [show tokensFrom table 0 source = front ++ w :: back from hsplit, List.pairwise_append,
    List.pairwise_cons] at hpairs
  obtain ⟨-, ⟨hback, hpairs⟩, hfront⟩ := hpairs
  have hplace := hc
  rw [hsplit, List.mem_append, List.mem_cons] at hplace
  rcases hplace with hplace | rfl | hplace
  · left
    exact Nat.lt_of_lt_of_le (offset_lt_stop hc) (hfront c hplace w List.mem_cons_self)
  · exact absurd hword ((kind_eq_comment_iff hc).1 hcomment).2
  · right
    cases back with
    | nil => cases hplace
    | cons b back =>
      have hnext : [w, b] <:+: tokenize table source := ⟨front, back, by simp [hsplit]⟩
      have hb : b ∈ tokenize table source := hnext.subset (by simp)
      rcases List.mem_cons.1 hplace with rfl | hplace
      · exact absurd hcomment (kind_ne_comment_of_word hnext hword)
      · calc
          w.stop ≤ b.offset := hback b List.mem_cons_self
          _ < b.stop := offset_lt_stop hb
          _ ≤ c.offset := (List.pairwise_cons.1 hpairs).1 c hplace

/-- The grammar reads the tokens of a script and no other row, and at each of them it reads that
token and nothing else.  Comments are the tokens that are neither words nor separators.  Behind a
word there is neither a word nor a comment, behind a run of separators there is no other run, and no
comment begins inside a word or right behind it. -/
theorem tokenize_reads (table : KeywordTable) (source : Text) :
    let tokens := tokenize table source
    (∀ row, ReadsAll table 0 source row ↔ row = tokens) ∧
    (∀ k ∈ tokens, ∃ rest, source.sliceFrom? k.offset = some rest ∧
      ∀ u c, Reads table rest u c ↔ u = k.text ∧ c = k.kind) ∧
    (∀ k ∈ tokens, k.kind = .comment ↔ ¬ IsSeparators k.text ∧ ¬ IsWord k.text) ∧
    (∀ a b, [a, b] <:+: tokens → IsWord a.text → ¬ IsWord b.text ∧ b.kind ≠ .comment) ∧
    (∀ a b, [a, b] <:+: tokens → IsSeparators a.text → ¬ IsSeparators b.text) ∧
    (∀ w ∈ tokens, IsWord w.text → ∀ c ∈ tokens, c.kind = .comment →
      c.offset < w.offset ∨ w.stop < c.offset) := by
  refine ⟨readsAll_iff 0 source, ?_, fun k hk => kind_eq_comment_iff hk, ?_,
    fun a b h ha => not_isSeparators_of_separators h ha,
    fun w hw hword c hc hcomment => comment_outside_word hw hword hc hcomment⟩
  · intro k hk
    obtain ⟨before, rest, rfl, hrest, rfl⟩ := exists_of_mem_tokensFrom hk
    rw [Nat.zero_add]
    exact ⟨rest, Text.sliceFrom?_append before rest, reads_iff hrest⟩
  · intro a b h ha
    exact ⟨not_isWord_of_isSeparators (isSeparators_of_word h ha), kind_ne_comment_of_word h ha⟩

/-- An opener inside a word opens nothing, and a closer does not share characters with its opener.
-/
example : (tokenize .standard "a//b /*/".toList).map (fun k => (k.kind, k.text)) =
    [(.other, "a//b".toList), (.whitespace, " ".toList), (.comment, "/*/".toList)] := by
  decide +kernel

end ScriptWorkbench.Lexeme
