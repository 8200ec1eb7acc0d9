import ScriptWorkbench.Lexeme.Grammar

/-!
# What stands at the beginning of a text

The shape of a text is decided by what opens it (`Shape.of_eq_iff`), and each shape covers the
beginning that the grammar asks for: the longest run of a class of characters
(`isLongest_takeWhile`), or a block comment up to its first closer (`cover_blockComment_cases`).

A text is its first token and what remains behind it, so what is said of all its tokens is proved
token by token (`token_induction`).
-/

set_option autoImplicit false

namespace ScriptWorkbench.Lexeme

/-! ## Shapes -/

/-- The text opens like this shape, and no shape that goes before it. -/
def Shape.Opens : Shape → Text → Prop
  | .lineComment, t => lineOpener <+: t
  | .blockComment, t => blockOpener <+: t
  | .separators, t => ∃ c ∈ t.head?, c ∈ separatorChars
  | .word, t => ¬ lineOpener <+: t ∧ ¬ blockOpener <+: t ∧ ∃ c ∈ t.head?, c ∉ separatorChars

/-- The shape of a text is decided by what opens it. -/
theorem Shape.of_eq_iff {t : Text} (ht : t ≠ []) (s : Shape) : Shape.of t = s ↔ s.Opens t := by
  have hslash : '/' ∉ separatorChars := by decide
  fun_cases Shape.of t with
  | case1 r => cases s <;> simp [Opens, lineOpener, blockOpener, hslash]
  | case2 r => cases s <;> simp [Opens, lineOpener, blockOpener, hslash]
  | case3 c r hline hblock hc =>
    rw [isSeparator_iff] at hc
    have hne : '/' ≠ c := by
      rintro rfl
      exact hslash hc
    cases s <;> simp [Opens, lineOpener, blockOpener, hc, hne]
  | case4 c r hline hblock hc =>
    rw [isSeparator_iff] at hc
    have hnoLine : ¬ lineOpener <+: c :: r := by
      rintro ⟨rest, hrest⟩
      obtain ⟨rfl, rfl⟩ := List.cons.inj hrest
      exact hline rest rfl rfl
    have hnoBlock : ¬ blockOpener <+: c :: r := by
      rintro ⟨rest, hrest⟩
      obtain ⟨rfl, rfl⟩ := List.cons.inj hrest
      exact hblock rest rfl rfl
    cases s <;> simp [Opens, hnoLine, hnoBlock, hc]
  | case5 => exact absurd rfl ht

/-! ## Longest and shortest beginnings -/

/-- There is one longest beginning with a property. -/
theorem IsLongest.unique {P : Text → Prop} {t u v : Text} (hu : IsLongest P t u)
    (hv : IsLongest P t v) : u = v := by
  have hle := hv.2.2 u hu.1 hu.2.1
  have hge := hu.2.2 v hv.1 hv.2.1
  exact (List.prefix_of_prefix_length_le hu.1 hv.1 hle).eq_of_length (Nat.le_antisymm hle hge)

/-- There is one shortest beginning with a property. -/
theorem IsShortest.unique {P : Text → Prop} {t u v : Text} (hu : IsShortest P t u)
    (hv : IsShortest P t v) : u = v := by
  have hle := hu.2.2 v hv.1 hv.2.1
  have hge := hv.2.2 u hu.1 hu.2.1
  exact (List.prefix_of_prefix_length_le hu.1 hv.1 hle).eq_of_length (Nat.le_antisymm hle hge)

/-- A run of a class of characters is the longest beginning of that class. -/
theorem isLongest_takeWhile {P : Text → Prop} {q : Char → Bool}
    (h : ∀ u, P u ↔ ∀ c ∈ u, q c = true) (t : Text) : IsLongest P t (t.takeWhile q) := by
  refine ⟨List.takeWhile_prefix q, (h _).2 (List.all_eq_true.1 List.all_takeWhile), ?_⟩
  rintro v ⟨rest, rfl⟩ hv
  rw [List.takeWhile_append_of_pos ((h v).1 hv), List.length_append]
  exact Nat.le_add_right _ _

/-- A line comment goes on to the end of its line. -/
theorem isLongest_lineComment (t : Text) :
    IsLongest IsUnbroken t (Shape.lineComment.cover t) :=
  isLongest_takeWhile (fun u => by simp [IsUnbroken, ← isLineEnd_iff]) t

/-- A run of separators goes on to the next character that is none. -/
theorem isLongest_separators (t : Text) :
    IsLongest IsSeparators t (Shape.separators.cover t) :=
  isLongest_takeWhile (fun u => by simp [IsSeparators, ← isSeparator_iff]) t

/-- A word goes on to the next separator. -/
theorem isLongest_word (t : Text) : IsLongest IsUnseparated t (Shape.word.cover t) :=
  isLongest_takeWhile (fun u => by simp [IsUnseparated, ← isSeparator_iff]) t

/-! ## Block comments -/

/-- The opener of a block comment has no part in its closer. -/
theorem isClosedBlock_iff {v : Text} : IsClosedBlock (blockOpener ++ v) ↔ blockCloser <:+ v := by
  constructor
  · rintro ⟨hlength, hcloser⟩
    rcases List.suffix_cons_iff.1 hcloser with hwhole | hcloser
    · cases hwhole
    rcases List.suffix_cons_iff.1 hcloser with hrest | hcloser
    · obtain ⟨-, rfl⟩ := List.cons.inj hrest
      simp [blockOpener] at hlength
    · exact hcloser
  · intro hcloser
    have hlength := hcloser.length_le
    refine ⟨?_, hcloser.trans (List.suffix_append _ _)⟩
    simp only [blockOpener, blockCloser, List.length_append, List.length_cons] at hlength ⊢
    omega

/-- Where no closer stands, a closed beginning goes on. -/
theorem closed_tail {c : Char} {t v : Text} (hnone : ∀ r, c = '*' → t = '/' :: r → False)
    (hv : v <+: c :: t) (hcloser : blockCloser <:+ v) :
    ∃ w, v = c :: w ∧ w <+: t ∧ blockCloser <:+ w := by
  cases v with
  | nil => simp [blockCloser] at hcloser
  | cons d w =>
    obtain ⟨rfl, hw⟩ := List.cons_prefix_cons.1 hv
    rcases List.suffix_cons_iff.1 hcloser with hwhole | hcloser
    · obtain ⟨rfl, rfl⟩ := List.cons.inj hwhole
      obtain ⟨r, hr⟩ := hw
      exact absurd hr.symm fun h => hnone r rfl h
    · exact ⟨w, rfl, hw, hcloser⟩

/-- A text is cut behind its first closer and not behind a later one. -/
theorem length_throughClose_le {t v : Text} (hv : v <+: t) (hcloser : blockCloser <:+ v) :
    (throughClose t).length ≤ v.length := by
  fun_induction throughClose t generalizing v with
  | case1 r => exact hcloser.length_le
  | case2 c t hnone ih =>
    obtain ⟨w, rfl, hw, hclosed⟩ := closed_tail hnone hv hcloser
    exact Nat.succ_le_succ (ih hw hclosed)
  | case3 => exact Nat.zero_le _

/-- A text is cut behind its first closer, or it has none. -/
theorem throughClose_cases (t : Text) :
    blockCloser <:+ throughClose t ∨
      throughClose t = t ∧ ∀ v : Text, v <+: t → ¬ blockCloser <:+ v := by
  fun_induction throughClose t with
  | case1 r => exact Or.inl (List.suffix_refl _)
  | case2 c t hnone ih =>
    rcases ih with hclosed | ⟨hall, hopen⟩
    · exact Or.inl (hclosed.trans (List.suffix_cons _ _))
    · right
      refine ⟨by rw [hall], ?_⟩
      intro v hv hcloser
      obtain ⟨w, -, hw, hclosed⟩ := closed_tail hnone hv hcloser
      exact hopen w hw hclosed
  | case3 =>
    right
    refine ⟨rfl, ?_⟩
    intro v hv hcloser
    rw [List.prefix_nil.1 hv] at hcloser
    simp [blockCloser] at hcloser

/-- A block comment covers its opener and what goes up to the first closer behind it. -/
theorem cover_blockComment (r : Text) :
    Shape.blockComment.cover (blockOpener ++ r) = blockOpener ++ throughClose r := rfl

/-- A closed block comment has its closer behind its opener. -/
theorem exists_of_isClosedBlock {r v : Text} (hv : v <+: blockOpener ++ r) (h : IsClosedBlock v) :
    ∃ w, v = blockOpener ++ w ∧ w <+: r ∧ blockCloser <:+ w := by
  have hlength : blockOpener.length ≤ v.length := Nat.le_trans (by decide) h.1
  obtain ⟨w, rfl⟩ := List.prefix_of_prefix_length_le (List.prefix_append _ r) hv hlength
  exact ⟨w, rfl, (List.prefix_append_right_inj _).1 hv, isClosedBlock_iff.1 h⟩

/-- A block comment is the shortest that is closed, or everything if there is none. -/
theorem cover_blockComment_cases {t : Text} (ht : blockOpener <+: t) :
    IsShortest IsClosedBlock t (Shape.blockComment.cover t) ∨
      Shape.blockComment.cover t = t ∧ ∀ v : Text, v <+: t → ¬ IsClosedBlock v := by
  obtain ⟨r, rfl⟩ := ht
  rw [cover_blockComment]
  rcases throughClose_cases r with hclosed | ⟨hall, hopen⟩
  · left
    refine ⟨?_, isClosedBlock_iff.2 hclosed, ?_⟩
    · exact (List.prefix_append_right_inj _).2 (isPrefix_throughClose r)
    · intro v hv h
      obtain ⟨w, rfl, hw, hcloser⟩ := exists_of_isClosedBlock hv h
      rw [List.length_append, List.length_append]
      exact Nat.add_le_add_left (length_throughClose_le hw hcloser) _
  · right
    refine ⟨by rw [hall], ?_⟩
    intro v hv h
    obtain ⟨w, -, hw, hcloser⟩ := exists_of_isClosedBlock hv h
    exact hopen w hw hcloser

/-! ## Token by token -/

variable {table : KeywordTable}

/-- The first token of a text that begins at a byte offset. -/
def tokenAt (table : KeywordTable) (offset : Nat) (t : Text) : Token :=
  ⟨(Shape.of t).classify table (lexeme t), lexeme t, offset⟩

/-- What remains of a text behind its first token. -/
def remainder (t : Text) : Text :=
  t.drop (lexeme t).length

/-- A text is its first token and what remains behind it. -/
theorem lexeme_append_remainder (t : Text) : lexeme t ++ remainder t = t :=
  List.prefix_iff_eq_append.1 (lexeme_isPrefix t)

/-- The empty text has no tokens. -/
theorem tokensFrom_nil (offset : Nat) : tokensFrom table offset [] = [] := by
  rw [tokensFrom, dif_pos rfl]

/-- The tokens of a text are its first token and those of what remains. -/
theorem tokensFrom_of_ne_nil {t : Text} (ht : t ≠ []) (offset : Nat) :
    tokensFrom table offset t =
      tokenAt table offset t :: tokensFrom table (offset + (lexeme t).byteSize) (remainder t) := by
  rw [tokensFrom, dif_neg ht]
  rfl

/-- Texts are taken apart token by token. -/
theorem token_induction {P : Nat → Text → Prop} (nil : ∀ offset, P offset [])
    (cons : ∀ offset t, t ≠ [] → P (offset + (lexeme t).byteSize) (remainder t) → P offset t)
    (offset : Nat) (t : Text) : P offset t := by
  induction hn : t.length using Nat.strongRecOn generalizing offset t with
  | ind n ih =>
    by_cases ht : t = []
    · rw [ht]
      exact nil offset
    · exact cons offset t ht (ih _ (hn ▸ length_drop_lexeme_lt ht) _ _ rfl)

end ScriptWorkbench.Lexeme
