import ScriptWorkbench.Proofs.Text.LineCut
import ScriptWorkbench.Run.Drive
import ScriptWorkbench.Run.History

/-!
# One stream of a run

`Feed.Move` lists everything that a step of a run can do to one of its streams
(`Run.feed_move`).  `Feed.Account` balances the books of a stream: what was written is what the
reader took and what is unread, and what the reader took is what it sent, what it has yet to send
and what is pending.  Every step keeps the books balanced (`Feed.Account.move`), so they are
balanced at the end of every schedule (`Run.feed_account`).
-/

set_option autoImplicit false

namespace ScriptWorkbench

/-- What a step can do to a stream.  The indices say which bytes are written, which bytes the reader
takes, which lines it sends, and whether a read failed. -/
inductive Feed.Move (f : Feed) : Bytes → Bytes → List Text → Bool → Feed → Prop
  | rest : f.Move [] [] [] false f
  | write (bytes : Bytes) (hopen : f.isOpen = true) :
      f.Move bytes [] [] false { f with unread := f.unread ++ bytes }
  | handle (held lent : Bool) (hopen : (held || lent) = true → f.isOpen = true) :
      f.Move [] [] [] false { f with held, lent }
  | read (n : Nat) (hreading : f.isReading = true) :
      f.Move [] (f.unread.take n) [] false (f.read n)
  | finish (failed : Bool) (hreading : f.isReading = true)
      (hend : failed = false → f.unread = [] ∧ f.isOpen = false) :
      f.Move [] [] [] failed f.finish
  | send (l : Text) (ls : List Text) (hout : f.outbox = l :: ls) :
      f.Move [] [] [l] false { f with outbox := ls }

/-- The books of a stream: what came in, what its reader took and sent, and whether a read
failed. -/
structure Feed.Account (written taken : Bytes) (sent : List Text) (failed : Bool) (f : Feed) :
    Prop where
  bytes : taken ++ f.unread = written
  reading : f.ended = false →
    sent ++ f.outbox = (Bytes.splitLines taken).1.map Bytes.lineText ∧
      f.splitter.pending = (Bytes.splitLines taken).2
  done : f.ended = true → sent ++ f.outbox = Lines.ofStream taken
  dry : f.ended = true → failed = false → f.unread = [] ∧ f.isOpen = false

namespace Feed

/-- A reader is between two reads as long as its stream has not ended and it has nothing to send. -/
theorem isReading_iff {f : Feed} : f.isReading = true ↔ f.ended = false ∧ f.outbox = [] := by
  simp [isReading]

/-- A reader is done once its stream has ended and it has nothing to send. -/
theorem isDone_iff {f : Feed} : f.isDone = true ↔ f.ended = true ∧ f.outbox = [] := by
  simp [isDone]

/-- A stream on which nothing has happened has nothing to account for. -/
theorem account_empty : Account [] [] [] false {} := by
  refine ⟨rfl, fun _ => ⟨rfl, rfl⟩, ?_, ?_⟩
  · intro h
    simp at h
  · intro h
    simp at h

/-- A chunk adds its lines to those that are to be sent, and what follows them stays pending. -/
theorem Account.read {written taken : Bytes} {sent : List Text} {failed : Bool} {f : Feed}
    (h : Account written taken sent failed f) (hreading : f.isReading = true) (n : Nat) :
    Account written (taken ++ f.unread.take n) sent failed (f.read n) := by
  obtain ⟨hended, hout⟩ := isReading_iff.1 hreading
  obtain ⟨hlines, hpending⟩ := h.reading hended
  have hcut := Bytes.splitLines_append taken (f.unread.take n)
  refine ⟨?_, ?_, ?_, ?_⟩
  · have hread : (f.read n).unread = f.unread.drop n := rfl
    rw [hread, List.append_assoc, List.take_append_drop]
    exact h.bytes
  · intro _
    rw [hout, List.append_nil] at hlines
    constructor
    · have houtbox : (f.read n).outbox =
          (Bytes.splitLines (f.splitter.pending ++ f.unread.take n)).1.map Bytes.lineText := rfl
      rw [houtbox, hcut, hpending, hlines, List.map_append]
    · have hsplitter : (f.read n).splitter.pending =
          (Bytes.splitLines (f.splitter.pending ++ f.unread.take n)).2 := rfl
      rw [hsplitter, hcut, hpending]
  · intro he
    have : (f.read n).ended = f.ended := rfl
    rw [this, hended] at he
    simp at he
  · intro he
    have : (f.read n).ended = f.ended := rfl
    rw [this, hended] at he
    simp at he

/-- At the end of the stream the open line is to be sent, unless it is empty. -/
theorem Account.finish {written taken : Bytes} {sent : List Text} {f : Feed}
    (h : Account written taken sent false f) (hreading : f.isReading = true) (failed : Bool)
    (hend : failed = false → f.unread = [] ∧ f.isOpen = false) :
    Account written taken sent failed f.finish := by
  obtain ⟨hended, hout⟩ := isReading_iff.1 hreading
  obtain ⟨hlines, hpending⟩ := h.reading hended
  rw [hout, List.append_nil] at hlines
  refine ⟨h.bytes, ?_, ?_, ?_⟩
  · intro he
    simp [Feed.finish] at he
  · intro _
    have hbox : f.finish.outbox = f.splitter.finish.1.toList := rfl
    rw [hbox, hlines, Lines.ofStream, Splitter.finish, Splitter.hasPending, hpending]
    cases hopen : (Bytes.splitLines taken).2 <;> simp
  · intro _ hfailed
    exact hend hfailed

/-- Every step keeps the books of a stream. -/
theorem Account.move {written taken w t : Bytes} {sent l : List Text} {failed b : Bool}
    {f f' : Feed} (h : Account written taken sent failed f) (hmove : f.Move w t l b f') :
    Account (written ++ w) (taken ++ t) (sent ++ l) (failed || b) f' := by
  cases hmove with
  | rest => simpa using h
  | write bytes hopen =>
    refine ⟨?_, ?_, ?_, ?_⟩
    · simp [← h.bytes]
    · simpa using h.reading
    · simpa using h.done
    · intro hended hfailed
      -- nothing is written once the stream has come to its end
      rw [Bool.or_false] at hfailed
      have hclosed := (h.dry hended hfailed).2
      rw [hopen] at hclosed
      simp at hclosed
  | handle held lent hopen =>
    refine ⟨?_, ?_, ?_, ?_⟩
    · simpa using h.bytes
    · simpa using h.reading
    · simpa using h.done
    · intro hended hfailed
      rw [Bool.or_false] at hfailed
      obtain ⟨hunread, hclosed⟩ := h.dry hended hfailed
      refine ⟨hunread, ?_⟩
      -- a stream that is closed is not opened again
      cases hheld : (held || lent) with
      | false => exact hheld
      | true =>
        have := hopen hheld
        rw [hclosed] at this
        simp at this
  | read n hreading =>
    simpa using h.read hreading n
  | finish _ hreading hend =>
    cases failed with
    | false => simpa using h.finish hreading b hend
    | true =>
      have hnone : Account written taken sent false f :=
        ⟨h.bytes, h.reading, h.done, fun he => by
          rw [(isReading_iff.1 hreading).1] at he
          simp at he⟩
      have hfinish := hnone.finish hreading true (by simp)
      simpa using hfinish
  | send line lines hout =>
    have hbox : (sent ++ [line]) ++ lines = sent ++ f.outbox := by
      rw [hout]
      simp
    refine ⟨?_, ?_, ?_, ?_⟩
    · simpa using h.bytes
    · intro hended
      have := h.reading hended
      rw [← hbox] at this
      simpa using this
    · intro hended
      have := h.done hended
      rw [← hbox] at this
      simpa using this
    · simpa [isOpen] using h.dry

/-- A reader that is done stays so, and sends nothing. -/
theorem Move.isDone {w t : Bytes} {l : List Text} {b : Bool} {f f' : Feed}
    (hmove : f.Move w t l b f') (hdone : f.isDone = true) : f'.isDone = true ∧ l = [] := by
  obtain ⟨hended, hout⟩ := isDone_iff.1 hdone
  cases hmove with
  | rest => exact ⟨hdone, rfl⟩
  | write bytes hopen => exact ⟨hdone, rfl⟩
  | handle held lent hopen => exact ⟨hdone, rfl⟩
  | read n hreading =>
    rw [(isReading_iff.1 hreading).1] at hended
    simp at hended
  | finish failed hreading hend =>
    rw [(isReading_iff.1 hreading).1] at hended
    simp at hended
  | send line lines hbox =>
    rw [hout] at hbox
    simp at hbox

end Feed

namespace Run

/-- Replacing a stream leaves the other one alone. -/
theorem feed_setFeed_of_ne (r : Run) {s t : Stream} (f : Feed) (h : t ≠ s) :
    (r.setFeed t f).feed s = r.feed s := by
  cases s <;> cases t <;> first | rfl | exact absurd rfl h

/-- Sending an event leaves both streams alone. -/
@[simp]
theorem feed_send (r : Run) (e : Event) (s : Stream) : (r.send e).feed s = r.feed s := by
  unfold send
  split <;> cases s <;> rfl

/-- Whether a step is a failing read of a stream. -/
def failed (s : Stream) (x : Step) : Bool :=
  x = .readFail s

/-- Replacing one stream is a move of that stream and leaves the other one alone. -/
theorem move_setFeed {r : Run} {s t : Stream} {f : Feed} {w k : Bytes} {l : List Text} {b : Bool}
    (hself : t = s → (r.feed s).Move w k l b f)
    (hother : t ≠ s → w = [] ∧ k = [] ∧ l = [] ∧ b = false) :
    (r.feed s).Move w k l b ((r.setFeed t f).feed s) := by
  by_cases hts : t = s
  · subst hts
    rw [feed_setFeed]
    exact hself rfl
  · obtain ⟨rfl, rfl, rfl, rfl⟩ := hother hts
    rw [feed_setFeed_of_ne r f hts]
    exact .rest

/-- What a step of a run does to each of its streams. -/
theorem feed_move {r r' : Run} {x : Step} (h : r.step? x = some r') (s : Stream) :
    (r.feed s).Move (r.written s x) (r.consumed s x) ((r.sent x).filterMap (Event.lineOn? s))
      (failed s x) (r'.feed s) := by
  cases x with
  | write t bytes =>
    simp only [step?] at h
    split at h <;> cases h
    rename_i hopen
    refine move_setFeed ?_ ?_
    · rintro rfl
      simpa [written, consumed, sent, failed] using .write bytes hopen
    · intro hts
      simp [written, consumed, sent, failed, hts]
  | close t =>
    simp only [step?] at h
    split at h <;> cases h
    rename_i hheld
    refine move_setFeed ?_ ?_
    · rintro rfl
      refine .handle false (r.feed t).lent ?_
      simp [Feed.isOpen, hheld]
    · simp [written, consumed, sent, failed]
  | bequeath t =>
    simp only [step?] at h
    split at h <;> cases h
    rename_i hheld
    refine move_setFeed ?_ ?_
    · rintro rfl
      refine .handle (r.feed t).held true ?_
      simp [Feed.isOpen, hheld.2]
    · simp [written, consumed, sent, failed]
  | release t =>
    simp only [step?] at h
    split at h <;> cases h
    rename_i hlent
    refine move_setFeed ?_ ?_
    · rintro rfl
      refine .handle (r.feed t).held false ?_
      simp [Feed.isOpen, hlent]
    · simp [written, consumed, sent, failed]
  | finish status =>
    simp only [step?] at h
    split at h <;> cases h
    have hmove : (r.feed s).Move [] [] [] false { r.feed s with held := false } := by
      refine .handle false (r.feed s).lent ?_
      intro hlent
      simpa [Feed.isOpen] using Or.inr hlent
    cases s <;> exact hmove
  | read t n =>
    simp only [step?] at h
    split at h <;> cases h
    rename_i hread
    refine move_setFeed ?_ ?_
    · rintro rfl
      simpa [written, consumed, sent, failed] using .read n hread.1
    · intro hts
      simp [written, consumed, sent, failed, hts]
  | interrupt t =>
    simp only [step?] at h
    split at h <;> cases h
    exact .rest
  | readEnd t =>
    simp only [step?] at h
    split at h <;> cases h
    rename_i hend
    refine move_setFeed ?_ ?_
    · rintro rfl
      refine .finish false hend.1 ?_
      intro _
      exact ⟨hend.2.1, by simpa [isOpen] using hend.2.2⟩
    · simp [written, consumed, sent, failed]
  | readFail t =>
    simp only [step?] at h
    split at h <;> cases h
    rename_i hreading
    refine move_setFeed ?_ ?_
    · rintro rfl
      simpa [written, consumed, sent, failed] using .finish true hreading (by simp)
    · intro hts
      simp [written, consumed, sent, failed, hts]
  | send t =>
    simp only [step?] at h
    split at h <;> cases h
    rename_i l ls hout
    rw [feed_send]
    refine move_setFeed ?_ ?_
    · rintro rfl
      simpa [written, consumed, sent, failed, hout, Event.lineOn?] using .send l ls hout
    · intro hts
      simp [written, consumed, sent, failed, hout, Event.lineOn?, hts]
  | join =>
    simp only [step?] at h
    split at h <;> cases h
    cases s <;> exact .rest
  | poll =>
    simp only [step?] at h
    split at h
    · split at h <;> cases h <;> cases s <;> exact .rest
    · cases h
  | pollFail =>
    simp only [step?] at h
    split at h <;> cases h
    cases s <;> exact .rest
  | report =>
    simp only [step?] at h
    split at h <;> cases h
    rename_i code hwaiter
    rw [feed_send]
    have hsent : (r.sent .report).filterMap (Event.lineOn? s) = [] := by
      simp [sent, hwaiter, Event.lineOn?]
    rw [hsent]
    cases s <;> exact .rest
  | kill reply =>
    simp only [step?, Option.some.injEq] at h
    subst h
    unfold kill
    split
    · have hmove : (r.feed s).Move [] [] [] false (r.feed s).shut := .handle false false (by simp)
      cases s <;> exact hmove
    · exact .rest
  | take =>
    simp only [step?] at h
    split at h <;> cases h
    cases s <;> exact .rest
  | hangUp =>
    simp only [step?, Option.some.injEq] at h
    subst h
    cases s <;> exact .rest

/-- The books of each stream are balanced at the end of every schedule. -/
theorem feed_account {steps : List Step} {r : Run} (h : ({} : Run).steps? steps = some r)
    (s : Stream) :
    (r.feed s).Account (({} : Run).history (written s) steps)
      (({} : Run).history (consumed s) steps)
      ((({} : Run).history sent steps).filterMap (Event.lineOn? s)) (steps.any (failed s)) := by
  refine Schedule.concat_induction
    (P := fun steps r => (r.feed s).Account (({} : Run).history (written s) steps)
      (({} : Run).history (consumed s) steps)
      ((({} : Run).history sent steps).filterMap (Event.lineOn? s)) (steps.any (failed s)))
    ?_ ?_ h
  · cases s <;> exact Feed.account_empty
  · intro steps t x u ht haccount hx
    have hmove := haccount.move (feed_move hx s)
    simp only [history, Schedule.along_concat ht hx, List.filterMap_append, List.any_append]
    simpa using hmove

end Run

end ScriptWorkbench
