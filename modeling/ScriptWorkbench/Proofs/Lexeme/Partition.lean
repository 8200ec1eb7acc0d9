import ScriptWorkbench.Proofs.Lexeme.Cursor

/-!
# Tokens side by side

Every token of a script is the first token of what remains of the script at its place
(`exists_of_mem_tokensFrom`), and the next one is the first token of what remains behind it
(`exists_of_infix_tokensFrom`).  So the tokens cover the script without gaps and without overlap,
and every place where one begins or ends lies between two characters (`tokenize_partition`).
-/

set_option autoImplicit false

namespace ScriptWorkbench.Lexeme

variable {table : KeywordTable}

/-! ## Where tokens stand -/

/-- Every token of a text is the first token of what remains of the text at some place. -/
theorem exists_of_mem_tokensFrom {offset : Nat} {t : Text} {k : Token}
    (h : k ∈ tokensFrom table offset t) :
    ∃ before rest, t = before ++ rest ∧ rest ≠ [] ∧
      k = tokenAt table (offset + before.byteSize) rest := by
  induction offset, t using token_induction with
  | nil offset =>
    rw [tokensFrom_nil] at h
    cases h
  | cons offset t ht ih =>
    rw [tokensFrom_of_ne_nil ht, List.mem_cons] at h
    rcases h with rfl | h
    · exact ⟨[], t, rfl, ht, rfl⟩
    · obtain ⟨before, rest, hsplit, hrest, rfl⟩ := ih h
      refine ⟨lexeme t ++ before, rest, ?_, hrest, ?_⟩
      · rw [List.append_assoc, ← hsplit, lexeme_append_remainder]
      · rw [Text.byteSize_append, ← Nat.add_assoc]

/-- A token that follows another one is the first of what remains behind that one. -/
theorem exists_of_infix_tokensFrom {offset : Nat} {t : Text} {a b : Token}
    (h : [a, b] <:+: tokensFrom table offset t) :
    ∃ before rest, t = before ++ rest ∧ rest ≠ [] ∧ remainder rest ≠ [] ∧
      a = tokenAt table (offset + before.byteSize) rest ∧
      b = tokenAt table a.stop (remainder rest) := by
  induction offset, t using token_induction with
  | nil offset =>
    rw [tokensFrom_nil] at h
    cases List.infix_nil.1 h
  | cons offset t ht ih =>
    rw [tokensFrom_of_ne_nil ht, List.infix_cons_iff] at h
    rcases h with h | h
    · obtain ⟨rfl, hnext⟩ := List.cons_prefix_cons.1 h
      by_cases hremainder : remainder t = []
      · rw [hremainder, tokensFrom_nil] at hnext
        cases List.prefix_nil.1 hnext
      · rw [tokensFrom_of_ne_nil hremainder] at hnext
        obtain ⟨rfl, -⟩ := List.cons_prefix_cons.1 hnext
        exact ⟨[], t, rfl, ht, hremainder, rfl, rfl⟩
    · obtain ⟨before, rest, hsplit, hrest, hremainder, rfl, rfl⟩ := ih h
      refine ⟨lexeme t ++ before, rest, ?_, hrest, hremainder, ?_, rfl⟩
      · rw [List.append_assoc, ← hsplit, lexeme_append_remainder]
      · rw [Text.byteSize_append, ← Nat.add_assoc]

/-- Tokens do not overlap. -/
theorem pairwise_tokensFrom (table : KeywordTable) (offset : Nat) (t : Text) :
    (tokensFrom table offset t).Pairwise fun a b => a.stop ≤ b.offset := by
  induction offset, t using token_induction with
  | nil offset =>
    rw [tokensFrom_nil]
    exact List.Pairwise.nil
  | cons offset t ht ih =>
    rw [tokensFrom_of_ne_nil ht]
    refine List.pairwise_cons.2 ⟨?_, ih⟩
    intro b hb
    obtain ⟨before, rest, -, -, rfl⟩ := exists_of_mem_tokensFrom hb
    exact Nat.le_add_right _ _

/-- Every token ends behind its beginning. -/
theorem offset_lt_stop {offset : Nat} {t : Text} {k : Token}
    (h : k ∈ tokensFrom table offset t) : k.offset < k.stop := by
  obtain ⟨before, rest, -, hrest, rfl⟩ := exists_of_mem_tokensFrom h
  exact Nat.lt_add_of_pos_right (Text.byteSize_pos (lexeme_ne_nil hrest))

/-- The first token begins where the text does. -/
theorem offset_of_head?_tokensFrom {offset : Nat} {t : Text} {k : Token}
    (h : (tokensFrom table offset t).head? = some k) : k.offset = offset := by
  by_cases ht : t = []
  · rw [ht, tokensFrom_nil] at h
    cases h
  · rw [tokensFrom_of_ne_nil ht, List.head?_cons, Option.some.injEq] at h
    rw [← h]
    rfl

/-- The last token ends where the text ends. -/
theorem stop_of_getLast?_tokensFrom {offset : Nat} {t : Text} {k : Token}
    (h : (tokensFrom table offset t).getLast? = some k) : k.stop = offset + t.byteSize := by
  induction offset, t using token_induction with
  | nil offset =>
    rw [tokensFrom_nil] at h
    cases h
  | cons offset t ht ih =>
    have hsize : Text.byteSize t = (lexeme t).byteSize + (remainder t).byteSize := by
      rw [← Text.byteSize_append, lexeme_append_remainder]
    rw [tokensFrom_of_ne_nil ht] at h
    by_cases hremainder : remainder t = []
    · rw [hremainder, tokensFrom_nil, List.getLast?_singleton, Option.some.injEq] at h
      rw [hsize, hremainder, ← h]
      rfl
    · have hmore : tokensFrom table (offset + (lexeme t).byteSize) (remainder t) ≠ [] := by
        rw [tokensFrom_of_ne_nil hremainder]
        exact List.cons_ne_nil _ _
      rw [List.getLast?_cons_of_ne_nil hmore] at h
      rw [ih h, hsize, ← Nat.add_assoc]

/-- The texts of the tokens make up the text again. -/
theorem flatMap_text_tokensFrom (offset : Nat) (t : Text) :
    (tokensFrom table offset t).flatMap Token.text = t := by
  induction offset, t using token_induction with
  | nil offset => rw [tokensFrom_nil, List.flatMap_nil]
  | cons offset t ht ih =>
    rw [tokensFrom_of_ne_nil ht, List.flatMap_cons, ih]
    exact lexeme_append_remainder t

/-! ## The whole script -/

/-- Between the two ends of a token stand its characters. -/
theorem slice?_tokenAt (before rest : Text) :
    (before ++ rest).slice? (tokenAt table before.byteSize rest).offset
      (tokenAt table before.byteSize rest).stop = some (lexeme rest) := by
  have h := Text.slice?_append before (lexeme rest) (remainder rest)
  rw [lexeme_append_remainder] at h
  exact h

/-- The cursor that goes over the bytes of a script comes to its end with the tokens of the script:
it never cuts a character and never stands still.  None of the tokens is empty, each of them is the
slice of the script between its offsets, and these lie between characters.  The first token begins
where the script begins, every other one where the one before it ends, and the last one ends where
the script ends.  Put together, their texts are the script, and their bytes are its bytes. -/
theorem tokenize_partition (table : KeywordTable) (source : Text) :
    let tokens := tokenize table source
    Cursor.tokenize table source = .ok tokens ∧
    (∀ k ∈ tokens, k.text ≠ [] ∧ source.slice? k.offset k.stop = some k.text ∧
      source.IsBoundary k.offset ∧ source.IsBoundary k.stop) ∧
    (∀ k, tokens.head? = some k → k.offset = 0) ∧
    (∀ a b, [a, b] <:+: tokens → b.offset = a.stop) ∧
    (∀ k, tokens.getLast? = some k → k.stop = source.byteSize) ∧
    tokens.flatMap Token.text = source ∧
    (tokens.flatMap fun k => k.text.bytes) = source.bytes := by
  intro tokens
  have htexts : tokens.flatMap Token.text = source := flatMap_text_tokensFrom 0 source
  refine ⟨Cursor.tokenize_eq table source, ?_, fun k hk => offset_of_head?_tokensFrom hk, ?_, ?_,
    htexts, ?_⟩
  · intro k hk
    obtain ⟨before, rest, rfl, hrest, rfl⟩ := exists_of_mem_tokensFrom hk
    rw [Nat.zero_add]
    refine ⟨lexeme_ne_nil hrest, slice?_tokenAt before rest, ⟨before, rest, rfl, rfl⟩, ?_⟩
    refine ⟨before ++ lexeme rest, remainder rest, ?_, Text.byteSize_append _ _⟩
    rw [List.append_assoc, lexeme_append_remainder]
  · intro a b hab
    obtain ⟨before, rest, -, -, -, rfl, rfl⟩ := exists_of_infix_tokensFrom hab
    rfl
  · intro k hk
    rw [stop_of_getLast?_tokensFrom hk, Nat.zero_add]
  · calc
      (tokens.flatMap fun k => k.text.bytes) = Text.bytes (tokens.flatMap Token.text) :=
        List.flatMap_assoc.symm
      _ = source.bytes := by rw [htexts]

end ScriptWorkbench.Lexeme
