import ScriptWorkbench.Text.Lines
import ScriptWorkbench.Text.Slice

/-!
# Lines by indices

A splitter as it goes over its buffer: it looks for the next line feed from an index on, cuts the
line out as a slice, goes on behind the line feed, and in the end drops what it went over.  A slice
that reaches beyond the buffer is none, and then nothing is handed out.

A splitter that works like this never asks for such a slice and does what `Splitter` does.
-/

set_option autoImplicit false

namespace ScriptWorkbench.LineScan

/-- The lines that end in the buffer from index `start` on, and the index behind the last of their
line feeds. -/
def linesFrom? (buffer : Bytes) (start : Nat) : Option (List Text × Nat) :=
  match _hrest : buffer.slice? start buffer.length with
  | none => none
  | some rest =>
    match _hfound : rest.findIdx? (· = lineFeed) with
    | none => some ([], start)
    | some length => do
      let line ← buffer.slice? start (start + length)
      let later ← linesFrom? buffer (start + length + 1)
      return (line.lineText :: later.1, later.2)
termination_by buffer.length - start
decreasing_by
  obtain ⟨hstart, rfl⟩ := Bytes.slice?_length _hrest
  obtain ⟨hlength, -⟩ := List.findIdx?_eq_some_iff_getElem.1 _hfound
  rw [List.length_drop] at hlength
  omega

/-- Takes in a chunk and hands out the lines that it completes, in order. -/
def push? (s : Splitter) (chunk : Bytes) : Option (List Text × Splitter) := do
  let buffer := s.pending ++ chunk
  let (lines, start) ← linesFrom? buffer 0
  let rest ← buffer.slice? start buffer.length
  return (lines, ⟨rest⟩)

/-- Takes in chunks one after the other. -/
def pushAll? (s : Splitter) : List Bytes → Option (List Text × Splitter)
  | [] => some ([], s)
  | chunk :: chunks => do
    let (lines, s) ← push? s chunk
    let (more, s) ← pushAll? s chunks
    return (lines ++ more, s)

/-- The open line at the end of the stream.  A buffer that holds nothing stays as it is. -/
def finish (s : Splitter) : Option Text × Splitter :=
  if s.pending.isEmpty then (none, s) else (some s.pending.lineText, ⟨[]⟩)

end ScriptWorkbench.LineScan
