import ScriptWorkbench.Paint.Scheme
import ScriptWorkbench.Paint.Unpaint
import ScriptWorkbench.Proofs.Lexeme.Splitting

/-!
# What a terminal shows of a script

A painted script shows the script and no other, although escape sequences in the script are painted
as they are (`Scheme.render_injective`).  The reason is how tokens end.  Behind a word stands a
separator and behind a line comment the end of a line, and neither stands in the sequences between
two spans; all other tokens are recognized before these sequences begin.  So the first token of what
is shown tells how far the first token of the script goes (`Ansi.cutSpan_lexeme`).
-/

set_option autoImplicit false

namespace ScriptWorkbench

open Lexeme

namespace Ansi

/-! ## The sequences between two spans -/

/-- The sequences that select a color are equally long. -/
@[simp]
theorem length_select_code (d : Color) : (select d.code).length = selectLength := by
  cases d <;> rfl

/-- The sequence that ends a color has its own length. -/
@[simp]
theorem length_select_zero : (select 0).length = resetLength := rfl

/-- The sequence that ends a color begins with the escape character. -/
theorem select_zero : select 0 = escape :: ['[', '0', 'm'] := rfl

/-- The sequences between two spans hold no separator and end no line. -/
theorem isPlain_of_mem {d : Color} {c : Char} (hc : c ∈ select 0 ++ select d.code) :
    isSeparator c = false ∧ isLineEnd c = false := by
  have hall : (select 0 ++ select d.code).all (fun c => !isSeparator c && !isLineEnd c) = true := by
    cases d <;> decide +kernel
  simpa using List.all_eq_true.1 hall c hc

/-- What is painted of a script begins like the script, behind the sequence of some color. -/
inductive Shows : Text → Text → Prop
  | nothing : Shows [] []
  | span (d : Color) (c : Char) (more rest : Text) : Shows (select d.code ++ c :: more) (c :: rest)

/-! ## Cutting off a span -/

variable {t u painted : Text}

/-- A token that ends in front of the reset. -/
theorem cutSpan_of_stop (h : lexeme (u ++ (select 0 ++ painted)) = u) :
    cutSpan (u ++ (select 0 ++ painted)) = (u, painted) := by
  have hdrop : (u ++ (select 0 ++ painted)).drop u.length =
      escape :: ('[' :: '0' :: 'm' :: painted) := by
    rw [List.drop_left]
    rfl
  simp only [cutSpan, h, hdrop, if_true]
  rfl

/-- A token that runs on to the end. -/
theorem cutSpan_of_all (h : lexeme (u ++ select 0) = u ++ select 0) :
    cutSpan (u ++ select 0) = (u, []) := by
  have hlength : (u ++ select 0).length - resetLength = u.length := by
    rw [List.length_append, length_select_zero, Nat.add_sub_cancel]
  simp only [cutSpan, h, List.drop_length, hlength, List.take_left]

/-- A token that runs on up to the text of the next span. -/
theorem cutSpan_of_run {d : Color} {c : Char} {more : Text} (hc : c ≠ escape)
    (h : lexeme (u ++ (select 0 ++ (select d.code ++ c :: more))) =
      u ++ (select 0 ++ select d.code)) :
    cutSpan (u ++ (select 0 ++ (select d.code ++ c :: more))) =
      (u, select d.code ++ c :: more) := by
  have hsplit : u ++ (select 0 ++ (select d.code ++ c :: more)) =
      (u ++ (select 0 ++ select d.code)) ++ c :: more := by simp
  have hlength : (u ++ (select 0 ++ select d.code)).length =
      u.length + (resetLength + selectLength) := by simp
  have htext : (u ++ (select 0 ++ select d.code)).length - (resetLength + selectLength) =
      u.length := by omega
  have hbehind : (u ++ (select 0 ++ select d.code)).length - selectLength =
      (u ++ select 0).length := by
    rw [hlength, List.length_append, length_select_zero]
    omega
  have hdrop : (u ++ (select 0 ++ (select d.code ++ c :: more))).drop
      (u ++ (select 0 ++ select d.code)).length = c :: more := by
    rw [hsplit, List.drop_left]
  simp only [cutSpan, h, hdrop, if_neg hc, htext, hbehind, List.take_left]
  rw [← List.append_assoc u, List.drop_left]

/-! ## How tokens end -/

/-- A comment does not open across the end of a token. -/
theorem opener_isPrefix_iff {a b : Char} (hb : b ≠ escape) (hu : u ≠ []) (x : Text) :
    [a, b] <+: u ++ escape :: x ↔ [a, b] <+: u := by
  obtain ⟨c, v, rfl⟩ := List.exists_cons_of_ne_nil hu
  cases v with
  | nil => simp [hb]
  | cons d v => simp

/-- What is painted of a token opens like the token. -/
theorem shape_append_select (hu : u ≠ []) (x : Text) :
    Shape.of (u ++ (select 0 ++ x)) = Shape.of u := by
  have hpainted : u ++ (select 0 ++ x) ≠ [] := List.append_ne_nil_of_left_ne_nil hu _
  have hhead : (u ++ (select 0 ++ x)).head? = u.head? := by
    obtain ⟨c, v, rfl⟩ := List.exists_cons_of_ne_nil hu
    rfl
  have hline : lineOpener <+: u ++ (select 0 ++ x) ↔ lineOpener <+: u :=
    opener_isPrefix_iff (by decide) hu _
  have hblock : blockOpener <+: u ++ (select 0 ++ x) ↔ blockOpener <+: u :=
    opener_isPrefix_iff (by decide) hu _
  have hopens := (Shape.of_eq_iff hu (Shape.of u)).1 rfl
  rw [Shape.of_eq_iff hpainted]
  cases hs : Shape.of u <;> rw [hs] at hopens <;> simpa only [Shape.Opens, hhead, hline, hblock]

/-- A word or a line comment runs on up to the character that stands behind it in the script. -/
theorem cutSpan_run {q : Char → Bool}
    (hq : ∀ (d : Color), ∀ c ∈ select 0 ++ select d.code, q c = true)
    (hlexeme : lexeme t = t.takeWhile q)
    (hpainted : ∀ x, lexeme (lexeme t ++ (select 0 ++ x)) =
      (lexeme t ++ (select 0 ++ x)).takeWhile q)
    (h : Shows painted (remainder t)) :
    cutSpan (lexeme t ++ (select 0 ++ painted)) = (lexeme t, painted) := by
  have htoken : ∀ c ∈ lexeme t, q c = true := by
    rw [hlexeme]
    exact List.all_eq_true.1 List.all_takeWhile
  have hbetween : ∀ d : Color, ∀ c ∈ lexeme t ++ (select 0 ++ select d.code), q c = true :=
    fun d => List.forall_mem_append.2 ⟨htoken, hq d⟩
  generalize hrest : remainder t = rest at h
  cases h with
  | nothing =>
    rw [List.append_nil]
    have hbehind : ∀ c ∈ lexeme t ++ select 0, q c = true :=
      List.forall_mem_append.2
        ⟨htoken, fun c hc => hq .black c (List.mem_append_left _ hc)⟩
    apply cutSpan_of_all
    have hwhole := hpainted []
    rw [List.append_nil] at hwhole
    rw [hwhole]
    simpa using @List.takeWhile_append_of_pos _ q _ [] hbehind
  | span d c more rest =>
    obtain ⟨e, he, hstop⟩ := head?_remainder hlexeme (by simp [hrest])
    rw [hrest] at he
    obtain rfl : c = e := Option.some.inj he
    have hne : c ≠ escape := by
      rintro rfl
      rw [hq d escape (by simp [select_zero])] at hstop
      cases hstop
    apply cutSpan_of_run hne
    have hsplit : lexeme t ++ (select 0 ++ (select d.code ++ c :: more)) =
        (lexeme t ++ (select 0 ++ select d.code)) ++ c :: more := by simp
    rw [hpainted, hsplit, List.takeWhile_append_of_pos (hbetween d),
      List.takeWhile_cons_of_neg (by simp [hstop]), List.append_nil]

/-- A closed comment ends where it ended in the script. -/
theorem lexeme_append_of_closed (hclosed : IsShortest IsClosedBlock t u) (hopen : blockOpener <+: u)
    (x : Text) : lexeme (u ++ x) = u := by
  have hopens : blockOpener <+: u ++ x := hopen.trans (List.prefix_append u x)
  have hne : u ++ x ≠ [] := by
    intro hnil
    rw [hnil] at hopens
    exact absurd hopens (by decide)
  have hshort : IsShortest IsClosedBlock (u ++ x) u := by
    refine ⟨List.prefix_append u x, hclosed.2.1, ?_⟩
    intro v hv hvclosed
    rcases Nat.le_total u.length v.length with hle | hle
    · exact hle
    · have hvu : v <+: u := List.prefix_of_prefix_length_le hv (List.prefix_append u x) hle
      exact hclosed.2.2 v (hvu.trans hclosed.1) hvclosed
  rw [lexeme_of_shape ((Shape.of_eq_iff hne .blockComment).2 hopens)]
  rcases cover_blockComment_cases hopens with hcover | ⟨-, hnone⟩
  · exact hcover.unique hshort
  · exact absurd hclosed.2.1 (hnone u (List.prefix_append u x))

/-- A comment that is open at the end of the script runs on to the end of the reset. -/
theorem lexeme_append_of_open (hopen : blockOpener <+: t)
    (hnone : ∀ v : Text, v <+: t → ¬ IsClosedBlock v) : lexeme (t ++ select 0) = t ++ select 0 := by
  have hopens : blockOpener <+: t ++ select 0 := hopen.trans (List.prefix_append t _)
  have hne : t ++ select 0 ≠ [] := List.append_ne_nil_of_right_ne_nil t (by decide)
  rw [lexeme_of_shape ((Shape.of_eq_iff hne .blockComment).2 hopens)]
  rcases cover_blockComment_cases hopens with hcover | ⟨hcover, -⟩
  · obtain ⟨hbegins, ⟨hlong, hcloser⟩, -⟩ := hcover
    rcases List.prefix_or_prefix_of_prefix hbegins (List.prefix_append t _) with h | ⟨y, hy⟩
    · exact absurd ⟨hlong, hcloser⟩ (hnone _ h)
    · rw [← hy] at hbegins hlong hcloser
      have hreset : y <+: select 0 := (List.prefix_append_right_inj _).1 hbegins
      -- the reset holds no slash, so the closer would stand in the script
      rcases List.eq_nil_or_concat y with rfl | ⟨z, c, rfl⟩
      · rw [List.append_nil] at hlong hcloser
        exact absurd ⟨hlong, hcloser⟩ (hnone t (List.prefix_refl t))
      · have hlast : c = '/' := by
          obtain ⟨w, hw⟩ := hcloser
          have hends := congrArg List.getLast? hw
          simpa [blockCloser, ← List.append_assoc] using hends.symm
        have hmem : c ∈ select 0 := hreset.subset (by simp)
        rw [hlast] at hmem
        exact absurd hmem (by decide)
  · exact hcover

/-- The first token of what is shown tells how far the first token of the script goes. -/
theorem cutSpan_lexeme (ht : t ≠ []) (h : Shows painted (remainder t)) :
    cutSpan (lexeme t ++ (select 0 ++ painted)) = (lexeme t, painted) := by
  have hshape : ∀ x, Shape.of (lexeme t ++ (select 0 ++ x)) = Shape.of t := fun x =>
    (shape_append_select (lexeme_ne_nil ht) x).trans (shape_lexeme ht)
  cases hs : Shape.of t with
  | lineComment =>
    refine cutSpan_run (q := fun c => !isLineEnd c) ?_ (lexeme_of_shape hs) ?_ h
    · intro d c hc
      simp [(isPlain_of_mem hc).2]
    · intro x
      exact lexeme_of_shape ((hshape x).trans hs)
  | word =>
    refine cutSpan_run (q := fun c => !isSeparator c) ?_ (lexeme_of_shape hs) ?_ h
    · intro d c hc
      simp [(isPlain_of_mem hc).1]
    · intro x
      exact lexeme_of_shape ((hshape x).trans hs)
  | separators =>
    apply cutSpan_of_stop
    have hall : ∀ c ∈ lexeme t, isSeparator c = true := fun c hc =>
      (isSeparator_iff c).2 ((isSeparators_lexeme_iff ht).2 hs c hc)
    rw [lexeme_of_shape ((hshape painted).trans hs)]
    exact (List.takeWhile_append_of_pos hall).trans (List.append_nil _)
  | blockComment =>
    have hopen : blockOpener <+: t := (Shape.of_eq_iff ht .blockComment).1 hs
    have hcover := cover_blockComment_cases hopen
    rw [← lexeme_of_shape hs] at hcover
    rcases hcover with hclosed | ⟨hwhole, hnone⟩
    · have hopens : blockOpener <+: lexeme t :=
        (Shape.of_eq_iff (lexeme_ne_nil ht) .blockComment).1 ((shape_lexeme ht).trans hs)
      exact cutSpan_of_stop (lexeme_append_of_closed hclosed hopens _)
    · have hend : remainder t = [] := by rw [remainder, hwhole, List.drop_length]
      rw [hend] at h
      cases h
      rw [hwhole, List.append_nil]
      exact cutSpan_of_all (lexeme_append_of_open hopen hnone)

end Ansi

/-! ## The whole script -/

namespace Scheme

open Ansi

variable (s : Scheme)

/-- What the tokens of a text are painted like. -/
def renderFrom (offset : Nat) (t : Text) : Text :=
  Ansi.render ((tokensFrom s.keywords offset t).map fun k => ⟨k.text, s.palette.colorOf k.kind⟩)

/-- Of the empty text nothing is painted. -/
theorem renderFrom_nil (offset : Nat) : s.renderFrom offset [] = [] := by
  rw [renderFrom, tokensFrom_nil]
  rfl

/-- A text is painted as its first token in some color and what remains after it. -/
theorem renderFrom_of_ne_nil {t : Text} (ht : t ≠ []) (offset : Nat) :
    ∃ d : Color, s.renderFrom offset t = select d.code ++
      (lexeme t ++ (select 0 ++ s.renderFrom (offset + (lexeme t).byteSize) (remainder t))) := by
  refine ⟨s.palette.colorOf (tokenAt s.keywords offset t).kind, ?_⟩
  rw [renderFrom, tokensFrom_of_ne_nil ht]
  simp only [Ansi.render, List.map_cons, List.flatMap_cons, paint, List.append_assoc]
  rfl

/-- What is painted of a text shows the text. -/
theorem shows_renderFrom (offset : Nat) (t : Text) : Shows (s.renderFrom offset t) t := by
  cases t with
  | nil =>
    rw [renderFrom_nil]
    exact .nothing
  | cons c t =>
    have hne : c :: t ≠ [] := List.cons_ne_nil c t
    obtain ⟨d, hd⟩ := s.renderFrom_of_ne_nil hne offset
    obtain ⟨b, u, hu⟩ := List.exists_cons_of_ne_nil (lexeme_ne_nil hne)
    have hbegins := lexeme_isPrefix (c :: t)
    rw [hu] at hbegins
    obtain ⟨rfl, -⟩ := List.cons_prefix_cons.1 hbegins
    rw [hd, hu]
    exact .span d b _ t

/-- Taking the colors off what is painted gives the text back. -/
theorem unpaint_renderFrom (offset : Nat) (t : Text) : unpaint (s.renderFrom offset t) = t := by
  induction offset, t using token_induction with
  | nil offset =>
    rw [renderFrom_nil, unpaint, dif_pos rfl]
  | cons offset t ht ih =>
    obtain ⟨d, hd⟩ := s.renderFrom_of_ne_nil ht offset
    have hne : s.renderFrom offset t ≠ [] := by
      rw [hd]
      exact List.cons_ne_nil _ _
    have hbehind := s.shows_renderFrom (offset + (lexeme t).byteSize) (remainder t)
    have hdrop : (s.renderFrom offset t).drop selectLength =
        lexeme t ++ (select 0 ++ s.renderFrom (offset + (lexeme t).byteSize) (remainder t)) := by
      rw [hd]
      exact List.drop_left' (length_select_code d)
    rw [unpaint, dif_neg hne]
    simp only [hdrop, cutSpan_lexeme ht hbehind, ih, lexeme_append_remainder]

/-- What a terminal shows of a script tells the script, whatever the keywords and the colors are and
whatever escape sequences stand in the script.  Two scripts that are shown alike are the same. -/
theorem render_injective (s : Scheme) :
    Function.Injective s.render ∧ ∀ source, Ansi.unpaint (s.render source) = source := by
  have hleft : Function.LeftInverse Ansi.unpaint s.render := s.unpaint_renderFrom 0
  exact ⟨hleft.injective, hleft⟩

/-- A script that holds the sequences around a span, in a word and in a comment. -/
example :
    let source := "a\x1b[0m\x1b[37mb \x1b[0m\x1b[30m//\x1b[0m\n/*\x1b[0m".toList
    Ansi.unpaint (({} : Scheme).render source) = source := by
  decide +kernel

end Scheme

end ScriptWorkbench
