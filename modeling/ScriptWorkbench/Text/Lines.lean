import ScriptWorkbench.Text.Utf8

/-!
# Lines of a byte stream

A stream arrives in chunks that need not end where a line ends.  A `Splitter` keeps the bytes of
the line that is still open and hands out each line once its line feed has come in.  Lines lose
their line feed and at most one carriage return before it; what remains is decoded, whatever the
bytes are.

`Bytes.splitLines` is the same cut for a whole stream at once, and `Lines.ofStream` the lines of a
stream that has ended.
-/

set_option autoImplicit false

namespace ScriptWorkbench

/-- The byte that ends a line. -/
def lineFeed : UInt8 := 10

/-- The byte that is dropped at the end of a line. -/
def carriageReturn : UInt8 := 13

/-- Cuts bytes after every line feed: the terminated lines without their line feeds, and the
bytes after the last one. -/
def Bytes.splitLines : Bytes → List Bytes × Bytes
  | [] => ([], [])
  | b :: bs =>
    match Bytes.splitLines bs with
    | (lines, rest) =>
      if b = lineFeed then ([] :: lines, rest)
      else match lines with
        | [] => ([], b :: rest)
        | line :: lines => ((b :: line) :: lines, rest)

/-- Every line of a cut had a line feed of its own. -/
theorem Bytes.length_splitLines_le (bs : Bytes) :
    (splitLines bs).1.length + (splitLines bs).2.length ≤ bs.length := by
  induction bs with
  | nil => simp [splitLines]
  | cons b bs ih =>
    simp only [splitLines]
    split
    · simp only [List.length_cons]
      omega
    · split
      · rename_i h
        simp only [h, List.length_nil, List.length_cons] at ih ⊢
        omega
      · rename_i h
        simp only [h, List.length_cons] at ih ⊢
        omega

/-- Drops one carriage return at the end. -/
def Bytes.chopReturn (line : Bytes) : Bytes :=
  if line.getLast? = some carriageReturn then line.dropLast else line

/-- The text of one line: without a carriage return at its end, decoded. -/
def Bytes.lineText (line : Bytes) : Text :=
  Utf8.decodeLossy line.chopReturn

/-- A carriage return at the end of a line is no part of its text; one before that is. -/
theorem Bytes.lineText_append_return (line : Bytes) :
    (line ++ [13]).lineText = Utf8.decodeLossy line := by
  have hlast : (line ++ [13]).getLast? = some carriageReturn := List.getLast?_concat
  rw [lineText, chopReturn, if_pos hlast, List.dropLast_concat]

/-- A line without a carriage return at its end is decoded as it is. -/
theorem Bytes.lineText_of_getLast?_ne {line : Bytes} (h : line.getLast? ≠ some 13) :
    line.lineText = Utf8.decodeLossy line := by
  have hlast : line.getLast? ≠ some carriageReturn := h
  rw [lineText, chopReturn, if_neg hlast]

/-- The text of any line, from its bytes. -/
theorem Bytes.lineText_eq (line : Bytes) :
    line.lineText = Utf8.decodeLossy (if line.getLast? = some 13 then line.dropLast else line) := by
  by_cases hlast : line.getLast? = some 13
  · obtain ⟨front, rfl⟩ := List.getLast?_eq_some_iff.1 hlast
    rw [lineText_append_return, if_pos hlast, List.dropLast_concat]
  · rw [lineText_of_getLast?_ne hlast, if_neg hlast]

/-- The open line of a stream. -/
structure Splitter where
  pending : Bytes
deriving DecidableEq, Repr

namespace Splitter

/-- A splitter before the first byte. -/
def empty : Splitter := ⟨[]⟩

/-- Takes in a chunk and hands out the lines that it completes, in order. -/
def push (s : Splitter) (chunk : Bytes) : List Text × Splitter :=
  let cut := Bytes.splitLines (s.pending ++ chunk)
  (cut.1.map Bytes.lineText, ⟨cut.2⟩)

/-- Takes in chunks one after the other. -/
def pushAll (s : Splitter) : List Bytes → List Text × Splitter
  | [] => ([], s)
  | chunk :: chunks =>
    let (lines, s) := s.push chunk
    let (more, s) := s.pushAll chunks
    (lines ++ more, s)

/-- Whether a line is open. -/
def hasPending (s : Splitter) : Bool :=
  !s.pending.isEmpty

/-- The open line at the end of the stream, if there is one.  The splitter is as new afterwards. -/
def finish (s : Splitter) : Option Text × Splitter :=
  (if s.hasPending then some (Bytes.lineText s.pending) else none, empty)

end Splitter

/-- The lines of a whole stream: each terminated line, then the open one if it is not empty. -/
def Lines.ofStream (bs : Bytes) : List Text :=
  let cut := Bytes.splitLines bs
  cut.1.map Bytes.lineText ++ (if cut.2.isEmpty then [] else [Bytes.lineText cut.2])

end ScriptWorkbench
