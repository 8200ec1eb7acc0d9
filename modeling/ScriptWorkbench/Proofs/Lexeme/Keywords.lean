import Mathlib.Data.List.Forall2
import ScriptWorkbench.Proofs.Lexeme.Reading

/-!
# What a keyword table decides

A keyword table has no say in where tokens begin and end.  It only tells the class of a word, so the
tokens of a script under two tables stand at the same places and differ at the words that one of the
tables has and the other has not (`forall₂_tokensFrom`).  Every string that could be a word is a
script by itself (`tokenize_word`), so two tables that disagree on a word can be told apart, and
entries that are no words never matter (`tokenize_tables`).
-/

set_option autoImplicit false

namespace ScriptWorkbench.Lexeme

/-- The tokens that stand at the same place of a script under two keyword tables: one and the same
token, or a word that is in one of the tables only, as a keyword and as something else. -/
inductive Counterpart (k l : KeywordTable) : Token → Token → Prop
  | same {a : Token} (h : IsWord a.text → (a.text ∈ k ↔ a.text ∈ l)) : Counterpart k l a a
  | first {u : Text} {offset : Nat} (hword : IsWord u) (hk : u ∈ k) (hl : u ∉ l) :
    Counterpart k l ⟨.keyword, u, offset⟩ ⟨.other, u, offset⟩
  | second {u : Text} {offset : Nat} (hword : IsWord u) (hk : u ∉ k) (hl : u ∈ l) :
    Counterpart k l ⟨.other, u, offset⟩ ⟨.keyword, u, offset⟩

variable {k l : KeywordTable}

/-! ## Token by token -/

/-- Two counterparts are the same token exactly if the tables agree on its text, should that be a
word. -/
theorem Counterpart.eq_iff {a b : Token} (h : Counterpart k l a b) :
    a = b ↔ (IsWord a.text → (a.text ∈ k ↔ a.text ∈ l)) := by
  cases h with
  | same h => exact ⟨fun _ => h, fun _ => rfl⟩
  | first hword hk hl => simp [hword, hk, hl]
  | second hword hk hl => simp [hword, hk, hl]

/-- Counterparts have the same text at the same offset. -/
theorem Counterpart.place {a b : Token} (h : Counterpart k l a b) :
    (a.text, a.offset) = (b.text, b.offset) := by
  cases h <;> rfl

/-- The class of a token that is no word does not depend on the table. -/
theorem classify_congr {s : Shape} (hs : s ≠ .word) (u : Text) :
    s.classify k u = s.classify l u := by
  cases s with
  | lineComment | blockComment | separators => rfl
  | word => exact absurd rfl hs

/-- The first tokens of a text under two tables. -/
theorem counterpart_tokenAt {t : Text} (ht : t ≠ []) (offset : Nat) :
    Counterpart k l (tokenAt k offset t) (tokenAt l offset t) := by
  have hword := isWord_lexeme_iff ht
  by_cases hs : Shape.of t = .word
  · have hclass : ∀ table : KeywordTable, tokenAt table offset t =
        ⟨if lexeme t ∈ table then .keyword else .other, lexeme t, offset⟩ := by
      intro table
      simp [tokenAt, hs, Shape.classify, KeywordTable.isKeyword]
    rw [hclass k, hclass l]
    by_cases hk : lexeme t ∈ k <;> by_cases hl : lexeme t ∈ l <;>
      simp only [hk, hl, if_true, if_false]
    · exact .same fun _ => ⟨fun _ => hl, fun _ => hk⟩
    · exact .first (hword.2 hs) hk hl
    · exact .second (hword.2 hs) hk hl
    · exact .same fun _ => ⟨fun h => absurd h hk, fun h => absurd h hl⟩
  · have hsame : tokenAt k offset t = tokenAt l offset t := by
      unfold tokenAt
      rw [classify_congr hs]
    rw [← hsame]
    exact .same fun h => absurd (hword.1 h) hs

/-- The tokens of a text under two tables are counterparts one by one. -/
theorem forall₂_tokensFrom (offset : Nat) (t : Text) :
    List.Forall₂ (Counterpart k l) (tokensFrom k offset t) (tokensFrom l offset t) := by
  induction offset, t using token_induction with
  | nil offset =>
    rw [tokensFrom_nil, tokensFrom_nil]
    exact .nil
  | cons offset t ht ih =>
    rw [tokensFrom_of_ne_nil ht, tokensFrom_of_ne_nil ht]
    exact .cons (counterpart_tokenAt ht offset) ih

/-- Rows of counterparts are equal exactly if the tables agree on the words of the first row. -/
theorem eq_iff_of_forall₂ {as bs : List Token} (h : List.Forall₂ (Counterpart k l) as bs) :
    as = bs ↔ ∀ a ∈ as, IsWord a.text → (a.text ∈ k ↔ a.text ∈ l) := by
  induction h with
  | nil => simp
  | cons hfirst _ ih => rw [List.cons.injEq, List.forall_mem_cons, hfirst.eq_iff, ih]

/-- Rows of counterparts have the same texts at the same offsets. -/
theorem places_of_forall₂ {as bs : List Token} (h : List.Forall₂ (Counterpart k l) as bs) :
    as.map (fun a => (a.text, a.offset)) = bs.map fun b => (b.text, b.offset) := by
  rw [← List.forall₂_eq_eq_eq, List.forall₂_map_left_iff, List.forall₂_map_right_iff]
  exact h.imp fun _ _ hpair => hpair.place

/-! ## Words as scripts -/

/-- A word by itself is all of its first token. -/
theorem lexeme_of_isWord {w : Text} (hw : IsWord w) : Shape.of w = .word ∧ lexeme w = w := by
  obtain ⟨hne, hunseparated, hline, hblock⟩ := hw
  obtain ⟨c, u, rfl⟩ := List.exists_cons_of_ne_nil hne
  have hs : Shape.of (c :: u) = .word := by
    rw [Shape.of_eq_iff hne]
    exact ⟨hline, hblock, c, rfl, hunseparated c List.mem_cons_self⟩
  have hlongest : IsLongest IsUnseparated (c :: u) (c :: u) :=
    ⟨List.prefix_refl _, hunseparated, fun v hv _ => hv.length_le⟩
  refine ⟨hs, ?_⟩
  rw [lexeme_of_shape hs]
  exact (isLongest_word _).unique hlongest

/-- A word by itself is a script with one token. -/
theorem tokenize_word (table : KeywordTable) {w : Text} (hw : IsWord w) :
    tokenize table w = [⟨if w ∈ table then .keyword else .other, w, 0⟩] := by
  obtain ⟨hs, hlexeme⟩ := lexeme_of_isWord hw
  have hrest : remainder w = [] := by
    rw [remainder, hlexeme, List.drop_length]
  unfold tokenize
  rw [tokensFrom_of_ne_nil hw.1, hrest, tokensFrom_nil, tokenAt, hs, hlexeme]
  simp [Shape.classify, KeywordTable.isKeyword]

/-! ## Whole scripts -/

/-- On one script two tables give the same tokens exactly if they agree on its words. -/
theorem tokenize_eq_iff (source : Text) :
    tokenize k source = tokenize l source ↔
      ∀ a ∈ tokenize k source, IsWord a.text → (a.text ∈ k ↔ a.text ∈ l) :=
  eq_iff_of_forall₂ (forall₂_tokensFrom 0 source)

/-- On all scripts two tables give the same tokens exactly if they have the same words. -/
theorem forall_tokenize_eq_iff :
    (∀ source, tokenize k source = tokenize l source) ↔ ∀ w, IsWord w → (w ∈ k ↔ w ∈ l) := by
  constructor
  · intro h w hw
    have hwords := (tokenize_eq_iff w).1 (h w)
    rw [tokenize_word k hw, List.forall_mem_singleton] at hwords
    exact hwords hw
  · intro h source
    rw [tokenize_eq_iff]
    intro a _ hword
    exact h a.text hword

/-- The keyword table decides the class of words and nothing else.  Whatever two tables hold, and in
whatever order and however often, the tokens that they give on a script have the same texts and the
same offsets, and their classes differ only at the words that one table has and the other has not:
such a word is a keyword under the one and nothing special under the other.  So the tokens of a
script are equal exactly if the tables agree on the words of the script, and those of every script
are equal exactly if the tables have the same words.  An entry that is no word can be left out. -/
theorem tokenize_tables (k l : KeywordTable) :
    (∀ source,
      (tokenize k source).map (fun a => (a.text, a.offset)) =
        (tokenize l source).map (fun b => (b.text, b.offset)) ∧
      List.Forall₂ (Counterpart k l) (tokenize k source) (tokenize l source) ∧
      (tokenize k source = tokenize l source ↔
        ∀ a ∈ tokenize k source, IsWord a.text → (a.text ∈ k ↔ a.text ∈ l))) ∧
    ((∀ source, tokenize k source = tokenize l source) ↔ ∀ w, IsWord w → (w ∈ k ↔ w ∈ l)) ∧
    (∀ front entry back, k = front ++ entry :: back →
      ((∀ source, tokenize k source = tokenize (front ++ back) source) ↔
        (IsWord entry → entry ∈ front ++ back))) := by
  refine ⟨?_, forall_tokenize_eq_iff, ?_⟩
  · intro source
    have hrows := forall₂_tokensFrom (k := k) (l := l) 0 source
    exact ⟨places_of_forall₂ hrows, hrows, tokenize_eq_iff source⟩
  · rintro front entry back rfl
    rw [forall_tokenize_eq_iff]
    have hmem : ∀ w, w ∈ front ++ entry :: back ↔ w = entry ∨ w ∈ front ++ back := by
      intro w
      simp only [List.mem_append, List.mem_cons]
      exact or_left_comm
    constructor
    · intro h hword
      exact (h entry hword).1 ((hmem entry).2 (Or.inl rfl))
    · intro h w hw
      rw [hmem]
      constructor
      · rintro (rfl | hold)
        · exact h hw
        · exact hold
      · exact Or.inr

/-- Entries that are no words never match, although the script has tokens with their texts. -/
example : tokenize ([";", " ", "a b", "// x"].map String.toList) "a b; // x".toList =
    tokenize [] "a b; // x".toList := by
  decide +kernel

end ScriptWorkbench.Lexeme
