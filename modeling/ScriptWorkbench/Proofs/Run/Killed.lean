import ScriptWorkbench.Proofs.Run.Ending

/-!
# After a kill

A kill that is delivered takes both streams away from every process and ends the interpreter, unless
the exit status has been collected before.  In both cases the run is doomed: no reader waits for
more bytes, the waiter does not wait for the interpreter, and what can be reported is settled
(`Run.doomed_kill`).  A doomed run stays so whatever happens (`Run.Doomed.step`), and what it has
still to do never grows (`Run.Doomed.remaining_le`).
-/

set_option autoImplicit false

namespace ScriptWorkbench

namespace Feed

/-- What a reader still has to do at most; nothing if it is done, whatever is written then. -/
def load (f : Feed) : Nat :=
  if f.isDone then 0 else f.work

/-- What a reader still has to do is no more than its work. -/
theorem load_le_work (f : Feed) : f.load ≤ f.work := by
  unfold load
  split
  · exact Nat.zero_le _
  · exact Nat.le_refl _

/-- A reader that is done has nothing to do. -/
theorem load_of_isDone {f : Feed} (h : f.isDone = true) : f.load = 0 :=
  if_pos h

/-- However much is read at once, it does not become more work. -/
theorem work_read_le {f : Feed} (hout : f.outbox = []) (n : Nat) : (f.read n).work ≤ f.work := by
  obtain ⟨unread, held, lent, ⟨pending⟩, outbox, ended⟩ := f
  cases hout
  have hcut := Bytes.length_splitLines_le (pending ++ unread.take n)
  rw [List.length_append, List.length_take] at hcut
  cases ended <;>
    simp only [read, work, Splitter.push, List.length_map, List.length_drop, List.length_nil,
      reduceIte, Bool.false_eq_true] <;>
    omega

variable {f f' : Feed} {w t : Bytes} {l : List Text} {b : Bool}

/-- A stream whose reader is done loses no bytes. -/
theorem Move.work_le_of_isDone (hmove : f.Move w t l b f') (hdone : f.isDone = true) :
    f.work ≤ f'.work := by
  obtain ⟨hended, hout⟩ := isDone_iff.1 hdone
  cases hmove with
  | rest => exact Nat.le_refl _
  | write bytes hopen =>
    simp only [work, List.length_append]
    omega
  | handle held lent hopen => exact Nat.le_refl _
  | read n hreading =>
    rw [(isReading_iff.1 hreading).1] at hended
    cases hended
  | finish failed hreading hend =>
    rw [(isReading_iff.1 hreading).1] at hended
    cases hended
  | send line lines hbox =>
    rw [hout] at hbox
    cases hbox

/-- What a step takes off the work of a reader it takes off its load. -/
theorem Move.load_add_work_le (hmove : f.Move w t l b f') :
    f'.load + f.work ≤ f.load + f'.work := by
  by_cases hdone : f.isDone = true
  · have hwork := hmove.work_le_of_isDone hdone
    rw [load_of_isDone hdone, load_of_isDone (hmove.isDone hdone).1]
    omega
  · have hload : f.load = f.work := if_neg hdone
    have hle := f'.load_le_work
    omega

/-- Nothing adds to the load of a reader that does not wait for more bytes. -/
theorem Move.load_le (hmove : f.Move w t l b f') (hclosed : f.isOpen = false ∨ f.isDone = true) :
    f'.load ≤ f.load := by
  by_cases hdone : f.isDone = true
  · rw [load_of_isDone (hmove.isDone hdone).1]
    exact Nat.zero_le _
  · have hload : f.load = f.work := if_neg hdone
    rw [hload]
    apply Nat.le_trans (load_le_work f')
    cases hmove with
    | rest => exact Nat.le_refl _
    | write _ hopen =>
      rw [hclosed.resolve_right hdone] at hopen
      cases hopen
    | handle held lent hopen => exact Nat.le_refl _
    | read n hreading => exact work_read_le (isReading_iff.1 hreading).2 n
    | finish failed hreading hend =>
      obtain ⟨hended, hout⟩ := isReading_iff.1 hreading
      exact Nat.le_of_lt (Run.Feed.work_finish_lt hended hout)
    | send line lines hout => exact Nat.le_of_lt (Run.Feed.work_send_lt hout)

end Feed

/-- Whether the waiter has yet to collect the exit status. -/
def Waiter.isWaiting : Waiter → Bool
  | .joining | .polling => true
  | .reporting _ | .done => false

namespace Run

variable {verdict : Option ExitCode → Prop} {before more : List Step} {r r' : Run} {x : Step}

/-- What readers that are not done and the waiter still have to do at most. -/
def load (r : Run) : Nat :=
  r.stdout.load + r.stderr.load + r.waiter.work

/-- What is still to be done at most until everything is taken that the run sends. -/
def remaining (r : Run) : Nat :=
  2 * r.load + r.queue.length

/-- A run that cannot but come to its end, and whose report has to be one of these codes. -/
structure Doomed (verdict : Option ExitCode → Prop) (r : Run) : Prop where
  closed : ∀ s, r.isOpen s = false ∨ (r.feed s).isDone = true
  ended : r.waiter.isWaiting = true → ∃ status, r.status = some status ∧ verdict status.code?
  reported : ∀ code, r.waiter = .reporting code → verdict code

/-! ## How a run becomes doomed -/

/-- Sending an event does not collect the exit status. -/
theorem collected_send (r : Run) (e : Event) : (r.send e).collected = r.collected := by
  unfold send
  split <;> rfl

/-- Replacing a stream does not collect the exit status. -/
theorem collected_setFeed (r : Run) (s : Stream) (f : Feed) :
    (r.setFeed s f).collected = r.collected := by
  cases s <;> rfl

/-- The waiter collects the exit status, and nobody else does. -/
theorem collected_step (h : r.collected = !r.waiter.isWaiting) (hx : r.step? x = some r') :
    r'.collected = !r'.waiter.isWaiting := by
  cases x with
  | poll =>
    simp only [step?] at hx
    split at hx
    · split at hx <;> cases hx
      · exact h
      · rfl
    · cases hx
  | pollFail =>
    simp only [step?] at hx
    split at hx <;> cases hx
    rfl
  | join =>
    simp only [step?] at hx
    split at hx <;> cases hx
    rename_i hjoin
    rw [hjoin.1] at h
    exact h
  | report =>
    simp only [step?] at hx
    split at hx <;> cases hx
    rename_i code hwaiter
    rw [hwaiter] at h
    rw [collected_send, waiter_send]
    exact h
  | kill reply =>
    simp only [step?, Option.some.injEq] at hx
    subst hx
    unfold kill
    split <;> exact h
  | hangUp =>
    simp only [step?, Option.some.injEq] at hx
    subst hx
    exact h
  | send t =>
    simp only [step?] at hx
    split at hx <;> cases hx
    rw [collected_send, waiter_send, collected_setFeed, waiter_setFeed]
    exact h
  | write t bytes | close t | bequeath t | release t | read t n | readEnd t | readFail t =>
    simp only [step?] at hx
    split at hx <;> cases hx
    rw [collected_setFeed, waiter_setFeed]
    exact h
  | finish status | interrupt t | take =>
    simp only [step?] at hx
    split at hx <;> cases hx
    exact h

/-- The exit status has been collected exactly if the waiter waits for nothing more. -/
theorem collected_eq (h : ({} : Run).steps? before = some r) :
    r.collected = !r.waiter.isWaiting :=
  Schedule.invariant (P := fun r : Run => r.collected = !r.waiter.isWaiting)
    (fun _ _ _ hr hx => collected_step hr hx) rfl h

/-- The waiter collects the exit status of an interpreter that has ended, unless looking for it
fails. -/
theorem isSome_status_of_collected (h : ({} : Run).steps? before = some r)
    (hcollected : r.collected = true) : r.status.isSome = true ∨ .pollFail ∈ before := by
  have hwaiting : r.waiter.isWaiting = false := by
    rw [collected_eq h, Bool.not_eq_true'] at hcollected
    exact hcollected
  clear hcollected
  revert hwaiting
  refine Schedule.concat_induction
    (P := fun before r => r.waiter.isWaiting = false → r.status.isSome = true ∨ .pollFail ∈ before)
    (by simp [Waiter.isWaiting]) ?_ h
  intro before r x r' hr ih hx hwaiting
  have hstays : r.waiter.isWaiting = false →
      r'.status.isSome = true ∨ .pollFail ∈ before ++ [x] := by
    intro hold
    rcases ih hold with hstatus | hfailed
    · obtain ⟨status, hstatus⟩ := Option.isSome_iff_exists.1 hstatus
      exact Or.inl (by rw [status_step hx hstatus]; rfl)
    · exact Or.inr (List.mem_append_left _ hfailed)
  have hmove := waiter_move hx
  generalize r.sent x = sent at hmove
  generalize hwaiter : r'.waiter = waiter at hmove hwaiting
  cases hmove with
  | rest _ _ _ => exact hstays hwaiting
  | join _ _ => cases hwaiting
  | collect code hpolling =>
    rcases reporting_step hx hwaiter with hsame | ⟨-, ⟨rfl, -⟩ | ⟨status, hstatus, -⟩⟩
    · rw [hpolling] at hsame
      cases hsame
    · exact Or.inr (List.mem_append_right _ List.mem_cons_self)
    · exact Or.inl (by rw [status_step hx hstatus]; rfl)
  | report code hreporting => exact hstays (by rw [hreporting]; rfl)

/-- A kill that is delivered leaves no interpreter that has not ended, unless looking for its exit
status has failed. -/
theorem isSome_status_kill (h : ({} : Run).steps? before = some r) :
    (r.kill .delivered).status.isSome = true ∨ .pollFail ∈ before := by
  cases hcollected : r.collected with
  | true =>
    refine (isSome_status_of_collected h hcollected).imp_left fun hstatus => ?_
    rw [kill, if_neg (by simp [killSignals, hcollected])]
    exact hstatus
  | false =>
    rw [kill, if_pos ⟨by simp [killSignals, hcollected], rfl⟩]
    exact Or.inl rfl

/-- A kill takes the streams away and leaves an interpreter that had ended its status. -/
theorem doomed_kill_of_waiting (h : ({} : Run).steps? before = some r)
    (hwaiting : r.waiter.isWaiting = true) (hexit : verdict (r.status.bind Status.code?)) :
    (r.kill .delivered).Doomed verdict := by
  have hcollected := collected_eq h
  rw [hwaiting] at hcollected
  unfold kill
  rw [if_pos ⟨by simp [killSignals, hcollected], rfl⟩]
  refine ⟨?_, ?_, ?_⟩
  · intro s
    left
    cases s <;> rfl
  · intro _
    refine ⟨r.status.getD .killed, rfl, ?_⟩
    cases hstatus : r.status with
    | none =>
      rw [hstatus] at hexit
      exact hexit
    | some status =>
      rw [hstatus] at hexit
      exact hexit
  · intro code hwaiter
    rw [show r.waiter = .reporting code from hwaiter] at hwaiting
    cases hwaiting

/-- Once the exit status has been collected both readers are done, and the report is settled. -/
theorem doomed_of_collected (h : ({} : Run).steps? before = some r)
    (hcollected : r.waiter.isWaiting = false) (hexit : verdict (r.status.bind Status.code?))
    (hpoll : .pollFail ∈ before → verdict none) : r.Doomed verdict := by
  refine ⟨?_, ?_, ?_⟩
  · intro s
    right
    apply (orderly h).joined
    intro hjoining
    rw [hjoining] at hcollected
    cases hcollected
  · intro hwaiting
    rw [hcollected] at hwaiting
    cases hwaiting
  · intro code hwaiter
    rcases code_known h (Or.inl hwaiter) with ⟨hfailed, rfl⟩ | ⟨status, hstatus, rfl⟩
    · exact hpoll hfailed
    · rwa [hstatus] at hexit

/-- A kill that is delivered dooms a run.  The run reports what its interpreter had ended with, or
no code if the kill ended it or if looking for the exit status fails. -/
theorem doomed_kill (h : ({} : Run).steps? before = some r)
    (hexit : verdict (r.status.bind Status.code?)) (hpoll : .pollFail ∈ before → verdict none) :
    (r.kill .delivered).Doomed verdict := by
  cases hwaiting : r.waiter.isWaiting with
  | true => exact doomed_kill_of_waiting h hwaiting hexit
  | false =>
    have hcollected := collected_eq h
    rw [hwaiting] at hcollected
    unfold kill
    rw [if_neg (by simp [killSignals, hcollected])]
    exact doomed_of_collected h hwaiting hexit hpoll

/-! ## What becomes of it -/

/-- A waiter that has collected the exit status does not wait for it again. -/
theorem isWaiting_of_step (hx : r.step? x = some r') (h : r'.waiter.isWaiting = true) :
    r.waiter.isWaiting = true := by
  have hmove := waiter_move hx
  generalize r.sent x = sent at hmove
  generalize r'.waiter = waiter at hmove h
  cases hmove with
  | rest _ _ _ => exact h
  | join hjoining _ => rw [hjoining]; rfl
  | collect code hpolling => rw [hpolling]; rfl
  | report code _ => cases h

/-- A doomed run stays doomed, and it reports nothing but what it has to. -/
theorem Doomed.step (h : r.Doomed verdict) (hpoll : x = .pollFail → verdict none)
    (hx : r.step? x = some r') :
    r'.Doomed verdict ∧ ∀ code, .exited code ∈ r.sent x → verdict code := by
  refine ⟨⟨?_, ?_, ?_⟩, ?_⟩
  · intro s
    have hmove := feed_move hx s
    rcases h.closed s with hclosed | hdone
    · exact Or.inl (isOpen_of_move hmove hclosed)
    · exact Or.inr (hmove.isDone hdone).1
  · intro hwaiting
    obtain ⟨status, hstatus, hcode⟩ := h.ended (isWaiting_of_step hx hwaiting)
    exact ⟨status, status_step hx hstatus, hcode⟩
  · intro code hwaiter
    rcases reporting_step hx hwaiter with hsame | ⟨hpolling, hknown⟩
    · exact h.reported code hsame
    rcases hknown with ⟨hfailed, rfl⟩ | ⟨status, hstatus, rfl⟩
    · exact hpoll hfailed
    · obtain ⟨last, hlast, hcode⟩ := h.ended (by rw [hpolling]; rfl)
      rw [hstatus, Option.some.injEq] at hlast
      rwa [hlast]
  · intro code hexit
    exact h.reported code (waiter_of_exited_mem_sent hexit)

/-- When the waiter of a doomed run looks for the exit status it is there. -/
theorem Doomed.isSome_status (h : r.Doomed verdict) (hpolling : r.waiter = .polling) :
    r.status.isSome = true := by
  obtain ⟨status, hstatus, -⟩ := h.ended (by rw [hpolling]; rfl)
  rw [hstatus]
  rfl

/-! ## What is still to be done -/

/-- The waiter never gets more to do. -/
theorem work_waiter_le (hx : r.step? x = some r') : r'.waiter.work ≤ r.waiter.work := by
  have hmove := waiter_move hx
  generalize r.sent x = sent at hmove
  generalize r'.waiter = waiter at hmove
  cases hmove with
  | rest _ _ _ => exact Nat.le_refl _
  | join hjoining _ => simp [hjoining, Waiter.work]
  | collect code hpolling => simp [hpolling, Waiter.work]
  | report code hreporting => simp [hreporting, Waiter.work]

/-- A doomed run never gets more to do. -/
theorem Doomed.load_le (h : r.Doomed verdict) (hx : r.step? x = some r') : r'.load ≤ r.load := by
  have hout : r'.stdout.load ≤ r.stdout.load := (feed_move hx .stdout).load_le (h.closed .stdout)
  have herr : r'.stderr.load ≤ r.stderr.load := (feed_move hx .stderr).load_le (h.closed .stderr)
  have hwaiter := work_waiter_le hx
  unfold load
  omega

/-- Each step of a reader or of the waiter of a doomed run leaves less to do. -/
theorem Doomed.load_lt (h : r.Doomed verdict) (hx : r.step? x = some r') (hown : x.isOwn = true) :
    r'.load < r.load := by
  have hwork : r'.work < r.work := work_lt_of_isOwn hx hown h.isSome_status
  have hout : r'.stdout.load + r.stdout.work ≤ r.stdout.load + r'.stdout.work :=
    (feed_move hx .stdout).load_add_work_le
  have herr : r'.stderr.load + r.stderr.work ≤ r.stderr.load + r'.stderr.work :=
    (feed_move hx .stderr).load_add_work_le
  unfold work at hwork
  unfold load
  omega

/-- Only readers and the waiter send events. -/
theorem isOwn_of_sent_ne_nil (h : r.sent x ≠ []) : x.isOwn = true := by
  cases x <;> first | rfl | exact absurd rfl h

/-- Whatever happens to a doomed run, what remains to be done does not become more.  Each step of a
reader, of the waiter, or of whoever takes events makes it less. -/
theorem Doomed.remaining_le (h : r.Doomed verdict) (hx : r.step? x = some r') :
    r'.remaining ≤ r.remaining ∧
      (x.isOwn = true ∨ x = .take → r'.remaining < r.remaining) := by
  have hload := h.load_le hx
  have hqueue := length_queue_step hx
  unfold remaining
  by_cases hown : x.isOwn = true
  · have hless := h.load_lt hx hown
    have hsent := length_sent_le r x
    constructor
    · omega
    · intro _
      omega
  · have hsent : r.sent x = [] :=
      Decidable.byContradiction fun hne => hown (isOwn_of_sent_ne_nil hne)
    rw [hsent, List.length_nil] at hqueue
    constructor
    · omega
    · rintro (hx' | rfl)
      · exact absurd hx' hown
      · have htaken := length_taken_of_take hx
        omega

/-- However a doomed run goes on, it reports nothing but what it has to. -/
theorem Doomed.steps (h : r.Doomed verdict) (hpoll : .pollFail ∈ more → verdict none)
    (hmore : r.steps? more = some r') :
    r'.Doomed verdict ∧ r'.remaining ≤ r.remaining ∧
      ∀ code, .exited code ∈ r.history sent more → verdict code := by
  induction more generalizing r with
  | nil =>
    cases hmore
    exact ⟨h, Nat.le_refl _, fun code hexit => absurd hexit List.not_mem_nil⟩
  | cons x more ih =>
    obtain ⟨u, hu, hrest⟩ := Option.bind_eq_some_iff.1 hmore
    have hfirst : x = .pollFail → verdict none := by
      rintro rfl
      exact hpoll List.mem_cons_self
    obtain ⟨hdoomed, hsent⟩ := h.step hfirst hu
    obtain ⟨hend, hremaining, hlater⟩ :=
      ih hdoomed (fun hmem => hpoll (List.mem_cons_of_mem x hmem)) hrest
    refine ⟨hend, Nat.le_trans hremaining (h.remaining_le hu).1, ?_⟩
    intro code hexit
    simp only [history, Schedule.along, hu, List.mem_append] at hexit
    exact hexit.elim (hsent code) (hlater code)

end Run

end ScriptWorkbench
