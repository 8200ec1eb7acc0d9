import ScriptWorkbench.Proofs.Run.Report

/-!
# How a run ends

The code that a run reports is that of its interpreter, unless looking for the exit status fails
(`Run.code_known`).  Readers, waiter and whoever takes events use up what there is to do
(`Run.effort_lt`), and nothing but readers and waiter is needed for a run to settle
(`Run.exists_own_steps?_settle`).
-/

set_option autoImplicit false

namespace ScriptWorkbench.Run

/-- Only the waiter sends an exit, and it sends the code that it is about to report. -/
theorem waiter_of_exited_mem_sent {r : Run} {x : Step} {code : Option ExitCode}
    (h : .exited code ∈ r.sent x) : r.waiter = .reporting code := by
  cases x with
  | send s =>
    obtain ⟨l, -, hl⟩ := List.mem_map.1 h
    cases hl
  | report =>
    simp only [sent] at h
    split at h
    · rename_i last hwaiter
      rw [List.mem_singleton, Event.exited.injEq] at h
      rw [hwaiter, h]
    · exact absurd h List.not_mem_nil
  | write s bytes | close s | bequeath s | release s | finish status | read s n | interrupt s
  | readEnd s | readFail s | join | poll | pollFail | kill reply | take | hangUp =>
    exact absurd h List.not_mem_nil

/-- The waiter comes to know a code by looking for the exit status, and knows none if that fails. -/
theorem reporting_step {r r' : Run} {x : Step} (hx : r.step? x = some r') {code : Option ExitCode}
    (hwaiter : r'.waiter = .reporting code) :
    r.waiter = .reporting code ∨
      r.waiter = .polling ∧ (x = .pollFail ∧ code = none ∨
        ∃ status, r.status = some status ∧ status.code? = code) := by
  cases x with
  | pollFail =>
    simp only [step?] at hx
    split at hx <;> cases hx
    rename_i hpolling
    rw [Waiter.reporting.injEq] at hwaiter
    exact Or.inr ⟨hpolling, Or.inl ⟨rfl, hwaiter.symm⟩⟩
  | poll =>
    simp only [step?] at hx
    split at hx
    · rename_i hpolling
      split at hx
      · cases hx
        exact Or.inl hwaiter
      · rename_i status hstatus
        cases hx
        rw [Waiter.reporting.injEq] at hwaiter
        exact Or.inr ⟨hpolling, Or.inr ⟨status, hstatus, hwaiter⟩⟩
    · cases hx
  | join =>
    simp only [step?] at hx
    split at hx <;> cases hx
    cases hwaiter
  | report =>
    simp only [step?] at hx
    split at hx <;> cases hx
    rw [waiter_send] at hwaiter
    cases hwaiter
  | kill reply =>
    simp only [step?, Option.some.injEq] at hx
    subst hx
    unfold kill at hwaiter
    split at hwaiter <;> exact Or.inl hwaiter
  | hangUp =>
    simp only [step?, Option.some.injEq] at hx
    subst hx
    exact Or.inl hwaiter
  | write t bytes | close t | bequeath t | release t | finish status | read t n | interrupt t
  | readEnd t | readFail t | send t | take =>
    simp only [step?] at hx
    split at hx <;> cases hx
    exact Or.inl (by simpa [letGo] using hwaiter)

/-- The code that a run is about to report, or has reported, says how its interpreter ended, unless
looking for the exit status failed. -/
theorem code_known {steps : List Step} {r : Run} (h : ({} : Run).steps? steps = some r)
    {code : Option ExitCode}
    (hcode : r.waiter = .reporting code ∨ .exited code ∈ ({} : Run).history sent steps) :
    .pollFail ∈ steps ∧ code = none ∨ ∃ status, r.status = some status ∧ status.code? = code := by
  revert hcode
  refine Schedule.concat_induction
    (P := fun steps r =>
      r.waiter = .reporting code ∨ .exited code ∈ ({} : Run).history sent steps →
      .pollFail ∈ steps ∧ code = none ∨ ∃ status, r.status = some status ∧ status.code? = code)
    ?_ ?_ h
  · rintro (hwaiter | hsent)
    · cases hwaiter
    · exact absurd hsent List.not_mem_nil
  · intro steps t x u ht ih hx hcode
    rw [history, Schedule.along_concat ht hx, List.mem_append] at hcode
    have hknown : .pollFail ∈ steps ++ [x] ∧ code = none ∨
        ∃ status, t.status = some status ∧ status.code? = code := by
      have hold := fun hcode => (ih hcode).imp_left
        fun hfailed => And.intro (List.mem_append_left [x] hfailed.1) hfailed.2
      rcases hcode with hwaiter | hsent | hnow
      · rcases reporting_step hx hwaiter with hwaiter | ⟨-, ⟨rfl, hnone⟩ | hstatus⟩
        · exact hold (Or.inl hwaiter)
        · exact Or.inl ⟨List.mem_append_right steps List.mem_cons_self, hnone⟩
        · exact Or.inr hstatus
      · exact hold (Or.inr hsent)
      · exact hold (Or.inl (waiter_of_exited_mem_sent hnow))
    refine hknown.imp_right ?_
    rintro ⟨status, hstatus, hsame⟩
    exact ⟨status, status_step hx hstatus, hsame⟩

/-- The code that is reported is that of the exit status, unless looking for it failed. -/
theorem exit_code {steps : List Step} {r : Run} (h : ({} : Run).steps? steps = some r)
    (hpoll : .pollFail ∉ steps) {code : Option ExitCode}
    (hexit : .exited code ∈ ({} : Run).history sent steps) :
    ∃ status, r.status = some status ∧ status.code? = code :=
  (code_known h (Or.inr hexit)).resolve_left fun hfailed => hpoll hfailed.1

/-- The readers of a run that is over have taken everything that was written, unless one of their
reads failed. -/
theorem consumed_eq_written {steps : List Step} {r : Run} (h : ({} : Run).steps? steps = some r)
    (hover : r.isOver = true) {s : Stream} (hread : .readFail s ∉ steps) :
    ({} : Run).history (consumed s) steps = ({} : Run).history (written s) steps := by
  have hjoined : r.waiter ≠ .joining := by
    rw [isOver_iff.1 hover]
    simp
  have haccount := feed_account h s
  obtain ⟨hended, -⟩ := Feed.isDone_iff.1 ((orderly h).joined hjoined s)
  obtain ⟨hunread, -⟩ := haccount.dry hended (any_failed_eq_false hread)
  have hbytes := haccount.bytes
  rwa [hunread, List.append_nil] at hbytes

/-! ## What is still to be done -/

/-- What readers and waiter still have to do at most, and what is still to be taken of it. -/
def effort (r : Run) : Nat :=
  2 * r.work + r.queue.length

/-- A step sends one event at most. -/
theorem length_sent_le (r : Run) (x : Step) : (r.sent x).length ≤ 1 := by
  cases x with
  | send s =>
    simp only [sent, List.length_map, List.length_take]
    omega
  | report =>
    simp only [sent]
    split <;> simp
  | write s bytes | close s | bequeath s | release s | finish status | read s n | interrupt s
  | readEnd s | readFail s | join | poll | pollFail | kill reply | take | hangUp =>
    exact Nat.zero_le 1

/-- The queue grows by what is sent and shrinks by what is taken. -/
theorem length_queue_step {r r' : Run} {x : Step} (hx : r.step? x = some r') :
    r'.queue.length + (r.taken x).length ≤ r.queue.length + (r.sent x).length := by
  rcases channel_step hx with ⟨rfl, -, hnil⟩ | ⟨-, -, hqueue⟩
  · rw [hnil]
    exact Nat.zero_le _
  · have hlength := congrArg List.length hqueue
    rw [List.length_append, List.length_append] at hlength
    split at hlength
    · omega
    · rw [List.length_nil] at hlength
      omega

/-- Taking an event takes one. -/
theorem length_taken_of_take {r r' : Run} (hx : r.step? .take = some r') :
    (r.taken .take).length = 1 := by
  simp only [step?] at hx
  split at hx
  · cases hx
  · rename_i hne
    have hpos : 0 < r.queue.length := List.length_pos_iff.2 hne
    simp only [taken, List.length_take]
    omega

/-- Each step of a reader, of the waiter, or of whoever takes events uses up some effort. -/
theorem effort_lt {r r' : Run} {x : Step} (hx : r.step? x = some r')
    (hown : x.isOwn = true ∨ x = .take) (hstatus : r.status.isSome = true) :
    r'.effort < r.effort := by
  have hqueue := length_queue_step hx
  unfold effort
  rcases hown with hown | rfl
  · have hwork := work_lt_of_isOwn hx hown fun _ => hstatus
    have hsent := length_sent_le r x
    omega
  · have htaken := length_taken_of_take hx
    have hsent : (r.sent .take).length = 0 := rfl
    have hwork : r'.work = r.work := by
      simp only [step?] at hx
      split at hx <;> cases hx
      rfl
    omega

/-! ## Coming to rest -/

/-- What a reader does next it does by itself. -/
theorem isOwn_of_nextRead? {r : Run} {s : Stream} {x : Step} (h : r.nextRead? s = some x) :
    x.isOwn = true := by
  simp only [nextRead?] at h
  split at h
  · cases h
    rfl
  · split at h
    · cases h
    · split at h
      · cases h
        rfl
      · split at h <;> cases h
        rfl

/-- What the waiter does next it does by itself. -/
theorem isOwn_of_nextWait? {r : Run} {x : Step} (h : r.nextWait? = some x) : x.isOwn = true := by
  unfold nextWait? at h
  split at h
  · split at h <;> cases h
    rfl
  · split at h <;> cases h
    rfl
  · cases h
    rfl
  · cases h

/-- What happens next by itself is a step of a reader or of the waiter. -/
theorem isOwn_of_next? {r : Run} {x : Step} (h : r.next? = some x) : x.isOwn = true := by
  simp only [next?, Option.or_eq_some_iff, Option.or_eq_none_iff] at h
  rcases h with (h | ⟨-, h⟩) | ⟨-, h⟩
  · exact isOwn_of_nextRead? h
  · exact isOwn_of_nextRead? h
  · exact isOwn_of_nextWait? h

/-- A run settles by steps of its readers and its waiter. -/
theorem exists_own_steps?_settleWithin (fuel : Nat) (r : Run) :
    ∃ steps, (∀ x ∈ steps, x.isOwn = true) ∧ r.steps? steps = some (r.settleWithin fuel) := by
  induction fuel generalizing r with
  | zero => exact ⟨[], by simp, rfl⟩
  | succ fuel ih =>
    unfold settleWithin
    split
    · exact ⟨[], by simp, rfl⟩
    · rename_i r' h
      obtain ⟨x, hnext, hx⟩ := Option.bind_eq_some_iff.1 h
      obtain ⟨steps, hown, hsteps⟩ := ih r'
      refine ⟨x :: steps, ?_, ?_⟩
      · intro y hy
        rcases List.mem_cons.1 hy with rfl | hy
        · exact isOwn_of_next? hnext
        · exact hown y hy
      · simp [steps?, Schedule.after?, hx, hsteps]

/-- A run settles by steps of its readers and of its waiter. -/
theorem exists_own_steps?_settle (r : Run) :
    ∃ steps, (∀ x ∈ steps, x.isOwn = true) ∧ r.steps? steps = some r.settle :=
  exists_own_steps?_settleWithin r.work r

end ScriptWorkbench.Run
