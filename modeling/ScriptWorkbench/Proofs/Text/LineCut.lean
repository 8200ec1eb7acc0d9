import ScriptWorkbench.Text.Lines

/-!
# How a stream falls into lines

`Bytes.IsCut` says how a stream falls into terminated lines and an open one, without saying how the
cut is found; there is exactly one cut of every stream, the one that is made (`Bytes.isCut_iff`).

`Bytes.splitLines` can be computed piece by piece: the lines of `a ++ b` are those of `a`, followed
by those of the open line of `a` and `b` (`splitLines_append`).  A reader that keeps the open line
and cuts each chunk as it comes in therefore sees the lines of the whole stream.
-/

set_option autoImplicit false

namespace ScriptWorkbench.Bytes

/-- A line feed at the front ends an empty line. -/
theorem splitLines_cons_lineFeed (bs : Bytes) :
    splitLines (lineFeed :: bs) = ([] :: (splitLines bs).1, (splitLines bs).2) := by
  simp [splitLines]

/-- A byte in front of an open line belongs to it. -/
theorem splitLines_cons_of_nil {b : UInt8} {bs : Bytes} (hb : b ≠ lineFeed)
    (h : (splitLines bs).1 = []) : splitLines (b :: bs) = ([], b :: (splitLines bs).2) := by
  simp [splitLines, hb, h]

/-- A byte in front of terminated lines belongs to the first of them. -/
theorem splitLines_cons_of_cons {b : UInt8} {bs line : Bytes} {lines : List Bytes}
    (hb : b ≠ lineFeed) (h : (splitLines bs).1 = line :: lines) :
    splitLines (b :: bs) = ((b :: line) :: lines, (splitLines bs).2) := by
  simp [splitLines, hb, h]

/-- The lines of a stream do not depend on where it is cut in two. -/
theorem splitLines_append (a b : Bytes) :
    splitLines (a ++ b) =
      ((splitLines a).1 ++ (splitLines ((splitLines a).2 ++ b)).1,
        (splitLines ((splitLines a).2 ++ b)).2) := by
  induction a with
  | nil => simp [splitLines]
  | cons x a ih =>
    by_cases hx : x = lineFeed
    · subst hx
      rw [List.cons_append, splitLines_cons_lineFeed, splitLines_cons_lineFeed, ih]
      rfl
    · cases hlines : (splitLines a).1 with
      | cons line lines =>
        have hrest : (splitLines (a ++ b)).1 =
            line :: (lines ++ (splitLines ((splitLines a).2 ++ b)).1) := by
          rw [ih, hlines]
          rfl
        rw [List.cons_append, splitLines_cons_of_cons hx hrest, splitLines_cons_of_cons hx hlines,
          ih]
        rfl
      | nil =>
        -- the open line of `x :: a` begins with `x`, so both sides have to be cut before `x`
        have hfront : (splitLines (a ++ b)).1 = (splitLines ((splitLines a).2 ++ b)).1 := by
          rw [ih, hlines]
          rfl
        have hback : (splitLines (a ++ b)).2 = (splitLines ((splitLines a).2 ++ b)).2 := by
          rw [ih]
        rw [splitLines_cons_of_nil hx hlines, List.cons_append, List.nil_append, List.cons_append]
        cases hmore : (splitLines (a ++ b)).1 with
        | nil =>
          rw [splitLines_cons_of_nil hx hmore, splitLines_cons_of_nil hx (hfront ▸ hmore), hback]
        | cons line lines =>
          rw [splitLines_cons_of_cons hx hmore, splitLines_cons_of_cons hx (hfront ▸ hmore), hback]

/-! ## The cut of a stream -/

/-- A stream consists of terminated lines and of an open one, and none of them holds a line feed of
its own. -/
structure IsCut (bytes : Bytes) (lines : List Bytes) (rest : Bytes) : Prop where
  joined : bytes = lines.flatMap (· ++ [10]) ++ rest
  terminated : ∀ line ∈ lines, 10 ∉ line
  unfinished : 10 ∉ rest

/-- Without a line feed there is nothing but an open line. -/
theorem splitLines_of_notMem {rest : Bytes} (h : lineFeed ∉ rest) :
    splitLines rest = ([], rest) := by
  induction rest with
  | nil => rfl
  | cons b rest ih =>
    rw [List.mem_cons, not_or] at h
    obtain ⟨hb, hrest⟩ := h
    rw [splitLines_cons_of_nil (Ne.symm hb) (by rw [ih hrest]), ih hrest]

/-- The bytes before the first line feed are the first line. -/
theorem splitLines_line {line : Bytes} (h : lineFeed ∉ line) (bytes : Bytes) :
    splitLines (line ++ lineFeed :: bytes) =
      (line :: (splitLines bytes).1, (splitLines bytes).2) := by
  induction line with
  | nil => exact splitLines_cons_lineFeed bytes
  | cons b line ih =>
    rw [List.mem_cons, not_or] at h
    obtain ⟨hb, hline⟩ := h
    have hrest := ih hline
    rw [List.cons_append, splitLines_cons_of_cons (Ne.symm hb) (congrArg Prod.fst hrest), hrest]

/-- The cut that is made is one. -/
theorem isCut_splitLines (bytes : Bytes) :
    bytes.IsCut (splitLines bytes).1 (splitLines bytes).2 := by
  induction bytes with
  | nil => exact ⟨rfl, by simp [splitLines], by simp [splitLines]⟩
  | cons b bytes ih =>
    obtain ⟨hjoined, hterminated, hunfinished⟩ := ih
    by_cases hb : b = lineFeed
    · subst hb
      rw [splitLines_cons_lineFeed]
      refine ⟨?_, ?_, hunfinished⟩
      · rw [List.flatMap_cons, List.append_assoc, ← hjoined]
        rfl
      · intro line hline
        rcases List.mem_cons.1 hline with rfl | hline
        · exact List.not_mem_nil
        · exact hterminated line hline
    · cases hlines : (splitLines bytes).1 with
      | nil =>
        rw [hlines] at hjoined
        rw [splitLines_cons_of_nil hb hlines]
        refine ⟨by simpa using hjoined, by simp, ?_⟩
        rw [List.mem_cons, not_or]
        exact ⟨Ne.symm hb, hunfinished⟩
      | cons line lines =>
        rw [hlines] at hjoined hterminated
        rw [splitLines_cons_of_cons hb hlines]
        refine ⟨by simpa using hjoined, ?_, hunfinished⟩
        intro l hl
        rcases List.mem_cons.1 hl with rfl | hl
        · rw [List.mem_cons, not_or]
          exact ⟨Ne.symm hb, hterminated line List.mem_cons_self⟩
        · exact hterminated l (List.mem_cons_of_mem line hl)

/-- There is one cut of a stream, and it is the one that is made. -/
theorem isCut_iff {bytes : Bytes} {lines : List Bytes} {rest : Bytes} :
    bytes.IsCut lines rest ↔ lines = (splitLines bytes).1 ∧ rest = (splitLines bytes).2 := by
  constructor
  · -- the terminated lines come off the front one after the other
    rintro ⟨rfl, hterminated, hunfinished⟩
    induction lines with
    | nil => simp [splitLines_of_notMem hunfinished]
    | cons line lines ih =>
      obtain ⟨hlines, hrest⟩ := ih fun l hl => hterminated l (List.mem_cons_of_mem line hl)
      have hfirst : splitLines (line ++ 10 :: (lines.flatMap (· ++ [10]) ++ rest)) = _ :=
        splitLines_line (hterminated line List.mem_cons_self) (lines.flatMap (· ++ [10]) ++ rest)
      rw [← hlines, ← hrest] at hfirst
      simp [hfirst]
  · rintro ⟨rfl, rfl⟩
    exact isCut_splitLines bytes

/-- The lines of a whole stream, from its cut and from the bytes of each line. -/
theorem ofStream_of_isCut {bytes rest : Bytes} {lines : List Bytes} (h : bytes.IsCut lines rest) :
    Lines.ofStream bytes =
      (lines ++ if rest = [] then [] else [rest]).map fun line =>
        Utf8.decodeLossy (if line.getLast? = some 13 then line.dropLast else line) := by
  obtain ⟨rfl, rfl⟩ := isCut_iff.1 h
  have htexts : (fun line : Bytes =>
      Utf8.decodeLossy (if line.getLast? = some 13 then line.dropLast else line)) = lineText :=
    funext fun line => (lineText_eq line).symm
  rw [htexts, List.map_append, Lines.ofStream]
  cases hrest : (splitLines bytes).2 <;> rfl

end ScriptWorkbench.Bytes
