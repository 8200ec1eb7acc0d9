import ScriptWorkbench.Proofs.Text.LineCut
import ScriptWorkbench.Text.LineScan

/-!
# Streams in chunks

A splitter hands out the terminated lines of a stream, and keeps the open one, however the stream is
cut into chunks and whatever streams were read before (`Splitter.lines_of_chunks`).  Going over the
buffer by indices does the same (`LineScan.pushAll?_eq`).
-/

set_option autoImplicit false

namespace ScriptWorkbench

namespace Splitter

/-! ## Chunks -/

/-- The lines of the first chunk come before those of the others. -/
theorem pushAll_cons (s : Splitter) (chunk : Bytes) (chunks : List Bytes) :
    s.pushAll (chunk :: chunks) =
      ((s.push chunk).1 ++ ((s.push chunk).2.pushAll chunks).1,
        ((s.push chunk).2.pushAll chunks).2) := rfl

/-- Chunks that come in one after the other are as good as one chunk, as long as the open line is
open. -/
theorem pushAll_eq_push {s : Splitter} (h : lineFeed ∉ s.pending) (chunks : List Bytes) :
    s.pushAll chunks = s.push chunks.flatten := by
  induction chunks generalizing s with
  | nil =>
    obtain ⟨pending⟩ := s
    simp [pushAll, push, Bytes.splitLines_of_notMem h]
  | cons chunk chunks ih =>
    have hopen : lineFeed ∉ (s.push chunk).2.pending :=
      (Bytes.isCut_splitLines (s.pending ++ chunk)).unfinished
    have hcut := Bytes.splitLines_append (s.pending ++ chunk) chunks.flatten
    rw [List.append_assoc] at hcut
    rw [pushAll_cons, ih hopen]
    simp only [push, List.flatten_cons, hcut, List.map_append]

/-- A new splitter makes nothing of where a stream is cut. -/
theorem pushAll_empty (chunks : List Bytes) : empty.pushAll chunks = empty.push chunks.flatten :=
  pushAll_eq_push List.not_mem_nil chunks

/-- The open line is handed out at the end unless it is empty. -/
theorem finish_eq_ite (s : Splitter) :
    s.finish = (if s.pending = [] then none else some s.pending.lineText, empty) := by
  obtain ⟨pending⟩ := s
  cases pending <;> rfl

end Splitter

namespace LineScan

/-! ## The same by indices -/

/-- The first line feed ends the first line. -/
theorem line_of_findIdx? {bytes : Bytes} {length : Nat}
    (h : bytes.findIdx? (· = lineFeed) = some length) :
    bytes = bytes.take length ++ lineFeed :: bytes.drop (length + 1) ∧
      lineFeed ∉ bytes.take length := by
  obtain ⟨hlength, hfeed, hbefore⟩ := List.findIdx?_eq_some_iff_getElem.1 h
  have hfeed : bytes[length] = lineFeed := by simpa using hfeed
  constructor
  · rw [← hfeed, List.getElem_cons_drop, List.take_append_drop]
  · intro hmem
    obtain ⟨i, hi, heq⟩ := List.getElem_of_mem hmem
    rw [List.length_take] at hi
    rw [List.getElem_take] at heq
    exact absurd (by simpa using heq) (hbefore i (by omega))

/-- Going over a buffer from an index on finds the lines of what stands there and stops where the
open line begins. -/
theorem linesFrom?_eq {buffer : Bytes} {start : Nat} (h : start ≤ buffer.length) :
    ∃ stop, linesFrom? buffer start =
        some ((Bytes.splitLines (buffer.drop start)).1.map Bytes.lineText, stop) ∧
      stop ≤ buffer.length ∧ buffer.drop stop = (Bytes.splitLines (buffer.drop start)).2 := by
  fun_induction linesFrom? buffer start with
  | case1 start hslice =>
    rw [Bytes.slice?_of_le h (Nat.le_refl _)] at hslice
    cases hslice
  | case2 start rest hslice hfound =>
    obtain ⟨-, rfl⟩ := Bytes.slice?_length hslice
    have hopen : lineFeed ∉ buffer.drop start := by
      intro hmem
      simpa using List.findIdx?_eq_none_iff.1 hfound lineFeed hmem
    rw [Bytes.splitLines_of_notMem hopen]
    exact ⟨start, rfl, h, rfl⟩
  | case3 start rest hslice length hfound ih =>
    obtain ⟨-, rfl⟩ := Bytes.slice?_length hslice
    obtain ⟨hjoined, hline⟩ := line_of_findIdx? hfound
    obtain ⟨hlength, -⟩ := List.findIdx?_eq_some_iff_getElem.1 hfound
    rw [List.length_drop] at hlength
    obtain ⟨stop, hlater, hstop, hopen⟩ := ih (by omega)
    have hcut : buffer.slice? start (start + length) = some ((buffer.drop start).take length) := by
      rw [Bytes.slice?_of_le (by omega) (by omega), Nat.add_sub_cancel_left]
    -- what stands at `start` is that line, its line feed and what the rest of the loop goes over
    rw [hjoined, List.drop_drop, ← Nat.add_assoc, Bytes.splitLines_line hline]
    refine ⟨stop, ?_, hstop, hopen⟩
    rw [hcut, hlater]
    rfl

/-- One chunk is taken in by indices as it is by the splitter. -/
theorem push?_eq (s : Splitter) (chunk : Bytes) : push? s chunk = some (s.push chunk) := by
  obtain ⟨stop, hlines, hstop, hopen⟩ := linesFrom?_eq (Nat.zero_le (s.pending ++ chunk).length)
  rw [List.drop_zero] at hlines hopen
  have hrest := Bytes.slice?_of_le hstop (Nat.le_refl _)
  rw [List.take_of_length_le (Nat.le_of_eq List.length_drop), hopen] at hrest
  simp only [push?, hlines, hrest, Option.bind_eq_bind, Option.bind_some]
  rfl

/-- Going over the buffer by indices never leaves it and hands out what a splitter hands out. -/
theorem pushAll?_eq (s : Splitter) (chunks : List Bytes) :
    pushAll? s chunks = some (s.pushAll chunks) := by
  induction chunks generalizing s with
  | nil => rfl
  | cons chunk chunks ih =>
    simp only [pushAll?, push?_eq, ih, Option.bind_eq_bind, Option.bind_some]
    rfl

/-- At the end both hand out the same. -/
theorem finish_eq (s : Splitter) : finish s = s.finish := by
  obtain ⟨pending⟩ := s
  cases pending <;> rfl

end LineScan

namespace Splitter

/-! ## All of it -/

/-- A splitter that has finished a stream is as new.  However the next stream comes in chunks, what
it hands out are the terminated lines of that stream, and what it keeps is the open one, which it
hands out at the end unless it is empty.  A line is handed out without its line feed and without
one carriage return at its end, decoded.  A splitter that goes over its buffer by indices does the
same. -/
theorem lines_of_chunks (s : Splitter) (chunks : List Bytes) :
    let fresh := s.finish.2
    let out := fresh.pushAll chunks
    fresh = empty ∧
    (∃ (lines : List Bytes) (rest : Bytes),
      (∀ l r, Bytes.IsCut chunks.flatten l r ↔ l = lines ∧ r = rest) ∧
      out.1 = lines.map (fun line =>
        Utf8.decodeLossy (if line.getLast? = some 13 then line.dropLast else line)) ∧
      out.2.pending = rest ∧
      (out.2.hasPending = true ↔ rest ≠ []) ∧
      out.2.finish =
        (if rest = [] then none
          else some (Utf8.decodeLossy (if rest.getLast? = some 13 then rest.dropLast else rest)),
          empty)) ∧
    LineScan.pushAll? fresh chunks = some out ∧
    LineScan.finish out.2 = out.2.finish := by
  intro fresh out
  have hout : out = empty.push chunks.flatten := pushAll_eq_push List.not_mem_nil chunks
  refine ⟨rfl, ?_, LineScan.pushAll?_eq fresh chunks, LineScan.finish_eq out.2⟩
  rw [hout]
  refine ⟨_, _, fun l r => Bytes.isCut_iff, ?_, rfl, ?_, ?_⟩
  · exact List.map_congr_left fun line _ => Bytes.lineText_eq line
  · simp [push, hasPending, empty]
  · rw [finish_eq_ite, Bytes.lineText_eq]
    rfl

/-- A character and the end of a line are cut in two, a line ends in two carriage returns, and the
open line has a broken byte. -/
theorem lines_of_chunks_cut_character :
    let chunks : List Bytes := [[0xC3], [], [0xA9, 13], [10, 13, 13, 10, 97], [0xFF, 13]]
    let out := empty.pushAll chunks
    Bytes.IsCut chunks.flatten [[0xC3, 0xA9, 13], [13, 13]] [97, 0xFF, 13] ∧
      out.1 = [['é'], ['\r']] ∧ out.2.pending = [97, 0xFF, 13] ∧
      out.2.finish = (some ['a', '\uFFFD'], empty) := by
  intro chunks out
  obtain ⟨-, ⟨lines, rest, hcut, hlines, hpending, -, hfinish⟩, -, -⟩ :=
    lines_of_chunks empty chunks
  have hparts : Bytes.IsCut chunks.flatten [[0xC3, 0xA9, 13], [13, 13]] [97, 0xFF, 13] :=
    ⟨by decide, by decide, by decide⟩
  obtain ⟨rfl, rfl⟩ := (hcut _ _).1 hparts
  refine ⟨hparts, hlines.trans ?_, hpending, hfinish.trans ?_⟩ <;> decide +kernel

end Splitter

end ScriptWorkbench
