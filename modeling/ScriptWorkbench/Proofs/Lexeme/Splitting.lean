import ScriptWorkbench.Proofs.Lexeme.Partition
import ScriptWorkbench.Proofs.Lexeme.Reading

/-!
# Cutting a script in two

A token is read from what stands at its place, and a part of the text that holds all of the token
shows as much of it as the whole text does (`Reads.narrow`).  So the tokens of a script are those of
a beginning of it, followed by those of the rest, if the cut lies between two tokens
(`tokensFrom_append`).  A cut inside a token makes tokens that the script does not have
(`tokenize_split`).
-/

set_option autoImplicit false

namespace ScriptWorkbench

/-- Only the empty text has no bytes. -/
theorem Text.byteSize_eq_zero_iff {t : Text} : t.byteSize = 0 ↔ t = [] := by
  constructor
  · intro h
    cases t with
    | nil => rfl
    | cons c t =>
      have hpos := Text.byteSize_pos (List.cons_ne_nil c t)
      omega
  · rintro rfl
    rfl

/-- Of two beginnings of a text the one with fewer bytes is a beginning of the other. -/
theorem Text.isPrefix_of_byteSize_le {a b t : Text} (ha : a <+: t) (hb : b <+: t)
    (h : a.byteSize ≤ b.byteSize) : a <+: b := by
  rcases List.prefix_or_prefix_of_prefix ha hb with hab | ⟨rest, rfl⟩
  · exact hab
  · rw [byteSize_append] at h
    obtain rfl : rest = [] := byteSize_eq_zero_iff.1 (by omega)
    exact ⟨[], by simp⟩

namespace Lexeme

variable {table : KeywordTable}

/-! ## A part that holds the token -/

/-- The longest beginning of a text is the longest of every part that holds it. -/
theorem IsLongest.narrow {P : Text → Prop} {t s u : Text} (h : IsLongest P t u) (hu : u <+: s)
    (hs : s <+: t) : IsLongest P s u := by
  obtain ⟨-, hP, hmax⟩ := h
  refine ⟨hu, hP, ?_⟩
  intro v hv
  exact hmax v (hv.trans hs)

/-- The shortest beginning of a text is the shortest of every part that holds it. -/
theorem IsShortest.narrow {P : Text → Prop} {t s u : Text} (h : IsShortest P t u) (hu : u <+: s)
    (hs : s <+: t) : IsShortest P s u := by
  obtain ⟨-, hP, hmin⟩ := h
  refine ⟨hu, hP, ?_⟩
  intro v hv
  exact hmin v (hv.trans hs)

/-- A token that stands at the front of a text stands at the front of every beginning of the text
that holds it. -/
theorem Reads.narrow {t s u : Text} {k : TokenClass} (h : Reads table t u k) (hne : s ≠ [])
    (hu : u <+: s) (hs : s <+: t) : Reads table s u k := by
  have hhead : s.head? = t.head? := by
    obtain ⟨rest, rfl⟩ := hs
    obtain ⟨c, s, rfl⟩ := List.exists_cons_of_ne_nil hne
    rfl
  cases h with
  | lineComment hopen h =>
    -- the opener is unbroken, so it belongs to the token
    have hlength := h.2.2 lineOpener hopen isUnbroken_lineOpener
    have hopens : lineOpener <+: u := List.prefix_of_prefix_length_le hopen h.1 hlength
    exact .lineComment (hopens.trans hu) (h.narrow hu hs)
  | closedComment hopen h =>
    have hlength : blockOpener.length ≤ u.length := by
      apply Nat.le_trans _ h.2.1.1
      decide
    have hopens : blockOpener <+: u := List.prefix_of_prefix_length_le hopen h.1 hlength
    exact .closedComment (hopens.trans hu) (h.narrow hu hs)
  | openComment hopen h hall =>
    -- the comment is everything, and so is the part that holds it
    subst hall
    obtain rfl : s = u := hs.eq_of_length_le hu.length_le
    exact .openComment hopen h rfl
  | separators hfirst h hclass =>
    rw [← hhead] at hfirst
    exact .separators hfirst (h.narrow hu hs) hclass
  | word hline hblock hfirst h hclass =>
    rw [← hhead] at hfirst
    refine .word ?_ ?_ hfirst (h.narrow hu hs) hclass
    · intro hopen
      exact hline (hopen.trans hs)
    · intro hopen
      exact hblock (hopen.trans hs)

/-- The first token of a text is the first token of every part that holds it. -/
theorem tokenAt_narrow (table : KeywordTable) {t s : Text} (hne : s ≠ []) (hu : lexeme t <+: s)
    (hs : s <+: t) (offset : Nat) :
    lexeme s = lexeme t ∧ tokenAt table offset s = tokenAt table offset t := by
  have ht : t ≠ [] := by
    rintro rfl
    exact hne (List.prefix_nil.1 hs)
  have hread : Reads table t (lexeme t) ((Shape.of t).classify table (lexeme t)) :=
    (reads_iff ht _ _).2 ⟨rfl, rfl⟩
  obtain ⟨hlexeme, hclass⟩ := (reads_iff hne _ _).1 (hread.narrow hne hu hs)
  refine ⟨hlexeme.symm, ?_⟩
  unfold tokenAt
  rw [hclass, hlexeme]

/-! ## The cut -/

/-- Where a text begins decides the offsets of its tokens and nothing else. -/
theorem tokensFrom_shift (table : KeywordTable) (n offset : Nat) (t : Text) :
    tokensFrom table (n + offset) t = (tokensFrom table offset t).map (Token.shift · n) := by
  induction offset, t using token_induction with
  | nil offset =>
    rw [tokensFrom_nil, tokensFrom_nil]
    rfl
  | cons offset t ht ih =>
    rw [tokensFrom_of_ne_nil ht, tokensFrom_of_ne_nil ht, List.map_cons, ← ih, ← Nat.add_assoc]
    have hfirst : tokenAt table (n + offset) t = (tokenAt table offset t).shift n := by
      unfold tokenAt Token.shift
      rw [Nat.add_comm]
    rw [hfirst]

/-- Where a token begins, the tokens of a text fall into those of what stands before that place and
those of what stands behind it. -/
theorem tokensFrom_append {offset : Nat} {s t : Text} {k : Token}
    (hk : k ∈ tokensFrom table offset (s ++ t)) (hcut : k.offset = offset + s.byteSize) :
    tokensFrom table offset (s ++ t) =
      tokensFrom table offset s ++ tokensFrom table (offset + s.byteSize) t := by
  -- the induction is on the tokens of the whole text, and `s` loses each of them in turn
  generalize hu : s ++ t = u at hk ⊢
  induction offset, u using token_induction generalizing s with
  | nil offset =>
    rw [tokensFrom_nil] at hk
    cases hk
  | cons offset u hne ih =>
    by_cases hs : s = []
    · subst hs
      subst hu
      rw [tokensFrom_nil]
      rfl
    · have hpos := Text.byteSize_pos hs
      rw [tokensFrom_of_ne_nil hne] at hk ⊢
      -- the cut is not in front of the first token, so it is not inside of it either
      have hrest : k ∈ tokensFrom table (offset + (lexeme u).byteSize) (remainder u) := by
        rcases List.mem_cons.1 hk with rfl | hk
        · change offset = offset + s.byteSize at hcut
          omega
        · exact hk
      have hsize : (lexeme u).byteSize ≤ s.byteSize := by
        obtain ⟨before, rest, -, -, rfl⟩ := exists_of_mem_tokensFrom hrest
        change offset + (lexeme u).byteSize + before.byteSize = offset + s.byteSize at hcut
        omega
      have hprefix : s <+: u := ⟨t, hu⟩
      obtain ⟨r, rfl⟩ := Text.isPrefix_of_byteSize_le (lexeme_isPrefix u) hprefix hsize
      obtain ⟨hlexeme, hfirst⟩ :=
        tokenAt_narrow table hs (List.prefix_append _ r) hprefix offset
      have hremainder : remainder (lexeme u ++ r) = r := by
        unfold remainder
        rw [hlexeme, List.drop_left]
      have hbehind : r ++ t = remainder u := by
        have hwhole : lexeme u ++ (r ++ t) = lexeme u ++ remainder u := by
          rw [lexeme_append_remainder, ← List.append_assoc, hu]
        exact List.append_cancel_left hwhole
      rw [Text.byteSize_append, ← Nat.add_assoc] at hcut
      have hlater := ih hcut hbehind hrest
      rw [tokensFrom_of_ne_nil hs, hlexeme, hfirst, hremainder, hlater, Text.byteSize_append,
        Nat.add_assoc, List.cons_append]

/-- The tokens of a script fall into those of a beginning and those of the rest only if a token
begins there, or if one of the two parts is empty. -/
theorem exists_token_of_cut {s t : Text}
    (h : tokenize table (s ++ t) =
      tokenize table s ++ (tokenize table t).map (Token.shift · s.byteSize)) (ht : t ≠ []) :
    ∃ k ∈ tokenize table (s ++ t), k.offset = s.byteSize := by
  refine ⟨(tokenAt table 0 t).shift s.byteSize, ?_, ?_⟩
  · rw [h]
    apply List.mem_append_right
    apply List.mem_map_of_mem
    unfold tokenize
    rw [tokensFrom_of_ne_nil ht]
    exact List.mem_cons_self
  · exact Nat.zero_add _

/-- The tokens of a script are those of two parts of it exactly if a token begins between them, or
one of them is empty. -/
theorem tokenize_append_iff (table : KeywordTable) (s t : Text) :
    tokenize table (s ++ t) =
        tokenize table s ++ (tokenize table t).map (Token.shift · s.byteSize) ↔
      s = [] ∨ t = [] ∨ ∃ k ∈ tokenize table (s ++ t), k.offset = s.byteSize := by
  have hshift : (tokenize table t).map (Token.shift · s.byteSize) =
      tokensFrom table s.byteSize t :=
    (tokensFrom_shift table s.byteSize 0 t).symm
  constructor
  · intro h
    by_cases ht : t = []
    · exact Or.inr (Or.inl ht)
    · exact Or.inr (Or.inr (exists_token_of_cut h ht))
  · rw [hshift]
    unfold tokenize
    rintro (rfl | rfl | ⟨k, hk, hcut⟩)
    · rw [tokensFrom_nil]
      rfl
    · rw [tokensFrom_nil, List.append_nil, List.append_nil]
    · have hcut' : k.offset = 0 + s.byteSize := by omega
      rw [tokensFrom_append hk hcut', Nat.zero_add]

/-- The text of a token is a script with one token. -/
theorem tokenize_lexeme {t : Text} (ht : t ≠ []) :
    tokenize table (lexeme t) = [tokenAt table 0 t] := by
  have hne := lexeme_ne_nil ht
  obtain ⟨hlexeme, hfirst⟩ :=
    tokenAt_narrow table hne (List.prefix_refl _) (lexeme_isPrefix t) 0
  have hrest : remainder (lexeme t) = [] := by
    unfold remainder
    rw [hlexeme, List.drop_length]
  unfold tokenize
  rw [tokensFrom_of_ne_nil hne, hrest, tokensFrom_nil, hfirst]

/-- A cut between two characters divides the tokens of a script exactly if it does not divide a
token: then the tokens are those of the part before the cut, followed by those of the part behind
it, which stand as many bytes further on as the first part has.  The text of each token, taken by
itself, is that one token. -/
theorem tokenize_split (table : KeywordTable) (source : Text) :
    let tokens := tokenize table source
    (∀ b, source.IsBoundary b → ∃ front back,
      source.sliceTo? b = some front ∧ source.sliceFrom? b = some back ∧
      (tokens = tokenize table front ++ (tokenize table back).map (Token.shift · b) ↔
        b = 0 ∨ b = source.byteSize ∨ ∃ k ∈ tokens, k.offset = b)) ∧
    ∀ k ∈ tokens, tokenize table k.text = [⟨k.kind, k.text, 0⟩] := by
  constructor
  · rintro b ⟨front, back, rfl, rfl⟩
    refine ⟨front, back, Text.sliceTo?_append front back, Text.sliceFrom?_append front back, ?_⟩
    have hback : front.byteSize = (front ++ back).byteSize ↔ back = [] := by
      rw [Text.byteSize_append, Nat.left_eq_add, Text.byteSize_eq_zero_iff]
    rw [hback, Text.byteSize_eq_zero_iff]
    apply tokenize_append_iff
  · intro k hk
    obtain ⟨before, rest, -, hrest, rfl⟩ := exists_of_mem_tokensFrom hk
    exact tokenize_lexeme hrest

/-- A cut in front of a comment, and one that takes a slash away from its opener. -/
theorem tokenize_split_opener :
    let source := "a //b".toList
    (∃ k ∈ tokenize .standard source, k.offset = 2) ∧
    tokenize .standard source = tokenize .standard "a ".toList ++
      (tokenize .standard "//b".toList).map (Token.shift · 2) ∧
    tokenize .standard source ≠ tokenize .standard "a /".toList ++
      (tokenize .standard "/b".toList).map (Token.shift · 3) := by
  intro source
  obtain ⟨hcuts, -⟩ := tokenize_split .standard source
  have hbegins : ∃ k ∈ tokenize .standard source, k.offset = 2 := by decide +kernel
  have hinside : ¬ ∃ k ∈ tokenize .standard source, k.offset = 3 := by decide +kernel
  refine ⟨hbegins, ?_, ?_⟩
  · obtain ⟨front, back, hfront, hback, hcut⟩ :=
      hcuts 2 ⟨"a ".toList, "//b".toList, by decide, by decide⟩
    obtain rfl : "a ".toList = front := Option.some.inj (Eq.trans (by decide) hfront)
    obtain rfl : "//b".toList = back := Option.some.inj (Eq.trans (by decide) hback)
    exact hcut.2 (Or.inr (Or.inr hbegins))
  · obtain ⟨front, back, hfront, hback, hcut⟩ :=
      hcuts 3 ⟨"a /".toList, "/b".toList, by decide, by decide⟩
    obtain rfl : "a /".toList = front := Option.some.inj (Eq.trans (by decide) hfront)
    obtain rfl : "/b".toList = back := Option.some.inj (Eq.trans (by decide) hback)
    intro hsame
    rcases hcut.1 hsame with hzero | hend | hbegin
    · cases hzero
    · exact absurd hend (by decide)
    · exact hinside hbegin

end Lexeme

end ScriptWorkbench
