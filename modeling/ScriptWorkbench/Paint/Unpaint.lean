import ScriptWorkbench.Lexeme.Scan
import ScriptWorkbench.Paint.Ansi

/-!
# Taking the colors off a script

The escape sequences around a span have a fixed length, but a script may hold such sequences too, so
they cannot simply be looked for.  `unpaint` cuts off one span after the other by reading the tokens
once more.  Words and line comments then run on through the sequences behind them, which hold no
separator and end no line; every other token ends in front of an escape, or at its closer.  What the
colors are, and which words are keywords, does not matter for this.
-/

set_option autoImplicit false

namespace ScriptWorkbench.Ansi

/-- The character that every escape sequence begins with. -/
def escape : Char := '\x1b'

/-- Number of characters of the sequence that selects a color. -/
def selectLength : Nat := 5

/-- Number of characters of the sequence that resets the color. -/
def resetLength : Nat := 4

/-- The text of the first span of a painted script and what stands behind the span.  The sequence
that selects the color of the span has been taken away before. -/
def cutSpan (t : Text) : Text × Text :=
  let run := Lexeme.lexeme t
  match t.drop run.length with
  | [] => (run.take (run.length - resetLength), [])
  | c :: rest =>
    if c = escape then (run, (c :: rest).drop resetLength)
    else (run.take (run.length - (resetLength + selectLength)), t.drop (run.length - selectLength))

/-- What remains behind the first painted span is no longer than the whole. -/
theorem length_cutSpan_le (t : Text) : (cutSpan t).2.length ≤ t.length := by
  simp only [cutSpan]
  split
  · exact Nat.zero_le _
  · rename_i c rest hrest
    split
    · rw [← hrest, List.drop_drop, List.length_drop]
      exact Nat.sub_le _ _
    · rw [List.length_drop]
      exact Nat.sub_le _ _

/-- The script that a painted text shows. -/
def unpaint (t : Text) : Text :=
  if _h : t = [] then []
  else
    let span := cutSpan (t.drop selectLength)
    span.1 ++ unpaint span.2
termination_by t.length
decreasing_by
  have hcut := length_cutSpan_le (t.drop selectLength)
  have hpos : 0 < t.length := List.length_pos_iff.2 _h
  rw [List.length_drop] at hcut
  simp only [selectLength] at hcut ⊢
  omega

end ScriptWorkbench.Ansi
