import ScriptWorkbench.Proofs.Run.Killed
import ScriptWorkbench.Proofs.Session.Killing
import ScriptWorkbench.Proofs.Session.Notices
import ScriptWorkbench.Proofs.Session.Progress

/-!
# Cancelling

A cancellation kills the run in progress and leaves the session to the run, which is doomed from
then on.  In whatever order things happen afterwards, readers, waiter and pump of the run have a
bounded number of steps before them, and they stop only when the session is completed
(`Workbench.cancel_ends`).  The session has a code if the interpreter had exited with it before the
cancellation came, and only then.
-/

set_option autoImplicit false

namespace ScriptWorkbench

namespace Ledger

/-- The exit code that is remembered is that of the session, once that is completed. -/
def RemembersExit (l : Ledger) : Prop :=
  ∀ s code, l.session = some s → s.state = .completed code → l.lastExit = code

/-- No move parts the exit code that is remembered from the session. -/
theorem RemembersExit.move {l : Ledger} (h : l.RemembersExit) (m : Move) :
    (l.move m).RemembersExit := by
  cases m with
  | enter script started =>
    intro s code hs hcode
    rw [Ledger.move, session_enter, Option.some.injEq] at hs
    subst hs
    cases started <;> cases hcode
  | notice id n =>
    cases hpending : l.isPending id with
    | false =>
      rw [Ledger.move, apply_of_not_isPending hpending]
      exact h
    | true =>
      obtain ⟨t, ht, rfl, hrunning⟩ := isPending_iff.1 hpending
      intro s code hs hcode
      cases n with
      | output entry =>
        rw [Ledger.move, apply_output ht hrunning] at hs
        obtain rfl := Option.some.inj hs
        -- a line leaves the session running
        rw [show _ = SessionState.running from hrunning] at hcode
        cases hcode
      | exited last =>
        rw [Ledger.move, apply_exited ht hrunning] at hs ⊢
        obtain rfl := Option.some.inj hs
        exact SessionState.completed.inj hcode
  | subscribe | unsubscribe i | empty i => exact h

end Ledger

namespace Workbench

variable {machine : Machine} {plan : Plan} {steps more : List Step} {w w' : Workbench}

/-- The exit code that a workbench remembers is that of the session, once that is completed. -/
theorem remembersExit (h : (new machine plan).steps? steps = some w) : w.ledger.RemembersExit := by
  refine Schedule.invariant ?_ ?_ (ledger_steps h)
  · intro l m l' hl hm
    cases hm
    exact hl.move m
  · intro s code hs
    cases hs

/-- Only a run that begins is entered into the ledger. -/
theorem isRun_of_isEnter_mem_moves {x : Step} {m : Ledger.Move} (h : m ∈ w.moves x)
    (hm : m.isEnter = true) : ∃ script hitch, x = .run script hitch := by
  cases x with
  | run script hitch => exact ⟨script, hitch, rfl⟩
  | pump id =>
    obtain ⟨e, -, rfl⟩ := List.mem_map.1 h
    cases hm
  | subscribe | unsubscribe i | empty i =>
    rw [List.mem_singleton.1 h] at hm
    cases hm
  | cancel | await i | look i | inside i y | meddle machine | permit reply =>
    exact absurd h List.not_mem_nil

/-- As long as no run begins the session goes on. -/
theorem precedes_steps (hrun : ∀ script hitch, .run script hitch ∉ more)
    (h : w.steps? more = some w') {s : Session} (hs : w.ledger.session = some s) :
    ∃ t, w'.ledger.session = some t ∧ s.Precedes t := by
  refine Ledger.precedes_moves (ledger_steps h) ?_ hs
  rw [List.countP_eq_zero]
  intro m hm henter
  obtain ⟨x, hx, u, hmoves⟩ := Schedule.exists_of_mem_along hm
  obtain ⟨script, hitch, rfl⟩ := isRun_of_isEnter_mem_moves hmoves henter
  exact hrun script hitch hx

/-- Looking for an exit status fails inside of a run only. -/
theorem eq_inside_of_pollFail_mem {id : SessionId} {x : Step} (h : .pollFail ∈ w.runMoves id x) :
    x = .inside id .pollFail := by
  have hstrikes : .pollFail ∉ w.strikes id := by
    unfold strikes
    split <;> simp
  cases x with
  | inside i y =>
    simp only [runMoves] at h
    split at h
    · rename_i hi
      rw [List.mem_singleton.1 h, hi]
    · exact absurd h List.not_mem_nil
  | run script hitch =>
    rcases List.mem_append.1 h with h | h
    · exact absurd h hstrikes
    · split at h
      · split at h <;> simp at h
      · exact absurd h List.not_mem_nil
  | cancel => exact absurd h hstrikes
  | pump i =>
    simp only [runMoves] at h
    split at h <;> simp at h
  | subscribe | unsubscribe i | empty i | await i | look i | meddle machine | permit reply =>
    exact absurd h List.not_mem_nil

/-- The search of a run for its exit status fails only in a step of that run. -/
theorem inside_mem_of_pollFail_mem {id : SessionId}
    (h : .pollFail ∈ w.history (runMoves id) steps) : .inside id .pollFail ∈ steps := by
  obtain ⟨x, hx, u, hmoves⟩ := Schedule.exists_of_mem_along h
  rwa [← eq_inside_of_pollFail_mem hmoves]

/-- A cancellation kills the run of the session. -/
theorem view_cancel (h : (new machine plan).steps? steps = some w) {s : Session}
    (hs : w.ledger.session = some s) (hrunning : s.state = .running) :
    w.cancel.view s.id = (w.view s.id).kill w.signals := by
  have hpending : w.ledger.isPending s.id = true := Ledger.isPending_iff.2 ⟨s, hs, rfl, hrunning⟩
  obtain ⟨-, r, -, hr, -⟩ := exists_run?_of_isPending h hpending
  have hstruck : w.cancel.run? s.id = w.struck s.id := run?_killCurrent_eq_struck h s.id
  unfold view
  rw [hstruck, struck, if_pos hpending, hr]
  rfl

/-- Whatever else happens, readers, waiter and pump of a doomed run have only so much to do. -/
theorem own_steps_le {id : SessionId} (hdoomed : (w.view id).Doomed fun _ => True)
    (h : w.steps? more = some w') :
    more.countP (Step.isOwnOf id) + (w'.view id).remaining ≤ (w.view id).remaining := by
  induction more generalizing w with
  | nil =>
    cases h
    rw [List.countP_nil]
    omega
  | cons x more ih =>
    obtain ⟨u, hu, hrest⟩ := Option.bind_eq_some_iff.1 h
    obtain ⟨hdoomed', hle, -⟩ := hdoomed.steps (fun _ => trivial) (run_step id w x u hu)
    have hlater := ih hdoomed' hrest
    rw [List.countP_cons]
    split
    · rename_i hown
      obtain ⟨y, hy, hmove⟩ := own_step hu hown
      have hlt := (hdoomed.remaining_le hmove).2 hy
      omega
    · omega

section

variable (h : (new machine plan).steps? steps = some w) {s : Session}
  (hs : w.ledger.session = some s) (hrunning : s.state = .running)
  (hsignals : w.signals = .delivered)

include h hs hrunning hsignals

/-- A run that is cancelled comes to its end, and its report is the code that its interpreter had or
none. -/
theorem doomed_cancel (verdict : Option ExitCode → Prop)
    (hexit : verdict ((w.view s.id).status.bind Status.code?))
    (hpoll : .inside s.id .pollFail ∈ steps → verdict none) :
    (w.cancel.view s.id).Doomed verdict := by
  rw [view_cancel h hs hrunning, hsignals]
  apply Run.doomed_kill (run_steps s.id h) hexit
  intro hmem
  exact hpoll (inside_mem_of_pollFail_mem hmem)

/-- What the run of a cancelled session reports is settled, whether the exit was sent before the
cancellation or is sent after it. -/
theorem verdict_of_said (verdict : Option ExitCode → Prop)
    (hexit : verdict ((w.view s.id).status.bind Status.code?))
    (hpoll : .inside s.id .pollFail ∈ steps ++ more → verdict none)
    (hmore : w.cancel.steps? more = some w') {code : Option ExitCode}
    (hsaid : .exited code ∈ (new machine plan).history (said s.id) (steps ++ .cancel :: more)) :
    verdict code := by
  have hbefore : .inside s.id .pollFail ∈ steps → verdict none := fun hmem =>
    hpoll (List.mem_append_left more hmem)
  have hafter : .inside s.id .pollFail ∈ more → verdict none := fun hmem =>
    hpoll (List.mem_append_right steps hmem)
  have hsplit : (new machine plan).history (said s.id) (steps ++ .cancel :: more) =
      (new machine plan).history (said s.id) steps ++ w.cancel.history (said s.id) more :=
    Schedule.along_append h (.cancel :: more)
  rw [hsplit, List.mem_append, history_said s.id h, history_said s.id hmore] at hsaid
  rcases hsaid with hsaid | hsaid
  · have hrun : ({} : Run).steps? _ = some (w.view s.id) := run_steps s.id h
    rcases Run.code_known hrun (Or.inr hsaid) with ⟨hfailed, rfl⟩ | ⟨status, hstatus, rfl⟩
    · exact hbefore (inside_mem_of_pollFail_mem hfailed)
    · rwa [hstatus] at hexit
  · have hdoomed := doomed_cancel h hs hrunning hsignals verdict hexit hbefore
    have hfailed : .pollFail ∈ w.cancel.history (runMoves s.id) more → verdict none :=
      fun hmem => hafter (inside_mem_of_pollFail_mem hmem)
    exact (hdoomed.steps hfailed (run_steps s.id hmore)).2.2 code hsaid

end

/-- Once the run in progress has been cancelled, and the signal reaches all of its processes, its
session goes on in whatever order things happen, as long as no run begins.  Readers, waiter and pump
of the run have a bounded number of steps before them, and one of them can act as long as the
session is running.  When the session is completed, its code is the one that the interpreter had
exited with before the cancellation came; there is none if the interpreter had not ended by then, if
a signal had ended it, or if looking for its exit status fails. -/
theorem cancel_ends (h : (new machine plan).steps? steps = some w) {s : Session}
    (hs : w.ledger.session = some s) (hrunning : s.state = .running)
    (hsignals : w.signals = .delivered) :
    let exit := (w.view s.id).status.bind Status.code?
    ∀ more w', (∀ script hitch, .run script hitch ∉ more) → w.cancel.steps? more = some w' →
      more.countP (Step.isOwnOf s.id) ≤ (w.cancel.view s.id).remaining ∧
      ∃ t, w'.ledger.session = some t ∧ s.Precedes t ∧
        (t.state = .running ∧ (∃ x : Step, x.isOwnOf s.id = true ∧ (w'.step? x).isSome = true) ∨
          ∃ code, t.state = .completed code ∧ w'.ledger.lastExit = code ∧
            (code = exit ∨ code = none ∧ .inside s.id .pollFail ∈ steps ++ more)) := by
  intro exit more w' hruns hmore
  have hall : (new machine plan).steps? (steps ++ .cancel :: more) = some w' :=
    Schedule.after?_trans h hmore
  have hdoomed : (w.cancel.view s.id).Doomed fun _ => True :=
    doomed_cancel h hs hrunning hsignals _ trivial fun _ => trivial
  have hledger : w.cancel.ledger = w.ledger := w.killCurrent_frame.1
  obtain ⟨t, ht, hst⟩ := precedes_steps hruns hmore (hledger ▸ hs)
  refine ⟨?_, t, ht, hst, ?_⟩
  · have hle := own_steps_le hdoomed hmore
    omega
  · rcases hst.state with hsame | ⟨-, code, hcode⟩
    · left
      have hend := (hdoomed.steps (fun _ => trivial) (run_steps s.id hmore)).1
      rw [← hst.id] at hend ⊢
      have hstill : t.state = .running := hsame.trans hrunning
      exact ⟨hstill, exists_own_of_running hall ht hstill hend.isSome_status hend.closed⟩
    · right
      have hpumped := (((mirrors hall).follows t ht).completed_iff code).1 hcode
      have hsaid := (pumped_isPrefix_said hall ht).subset hpumped
      rw [hst.id] at hsaid
      refine ⟨code, hcode, remembersExit hall t code ht hcode, ?_⟩
      apply verdict_of_said h hs hrunning hsignals
        (fun code => code = exit ∨ code = none ∧ .inside s.id .pollFail ∈ steps ++ more)
        (Or.inl rfl) _ hmore hsaid
      intro hmem
      exact Or.inr ⟨rfl, hmem⟩

/-- The interpreter has lent both streams to a process that never ends. -/
def lending : List Step :=
  [.run ['a'] none, .inside 1 (.bequeath .stdout), .inside 1 (.bequeath .stderr)]

/-- Readers, waiter and pump do what they can. -/
def windingUp : List Step :=
  [.inside 1 (.readEnd .stdout), .inside 1 (.readEnd .stderr), .inside 1 .join, .inside 1 .poll,
    .inside 1 .report, .pump 1]

/-- The interpreter has started a process that holds the streams when the run is cancelled, and the
session ends without a code. -/
theorem cancel_ends_lending :
    ∃ w w', desk.steps? lending = some w ∧ w.signals = .delivered ∧
      w.ledger.session = some ⟨1, ['a'], .running, []⟩ ∧
      w.cancel.steps? windingUp = some w' ∧
      w'.ledger.session = some ⟨1, ['a'], .completed none, []⟩ ∧ w'.ledger.lastExit = none := by
  have hend : (desk.steps? (lending ++ .cancel :: windingUp)).isSome = true := by decide +kernel
  obtain ⟨w', hw'⟩ := Option.isSome_iff_exists.1 hend
  have hboth := hw'
  rw [steps?, Schedule.after?_append] at hboth
  obtain ⟨w, hw, hmore⟩ := Option.bind_eq_some_iff.1 hboth
  have hsession : w.ledger.session = some ⟨1, ['a'], .running, []⟩ :=
    Schedule.eq_of_map_after? (f := fun w : Workbench => w.ledger.session) hw (by decide +kernel)
  have hsignals : w.signals = .delivered :=
    Schedule.eq_of_map_after? (f := fun w : Workbench => w.signals) hw (by decide +kernel)
  have hlast : w'.ledger.session = some ⟨1, ['a'], .completed none, []⟩ :=
    Schedule.eq_of_map_after? (f := fun w : Workbench => w.ledger.session) hw' (by decide +kernel)
  obtain ⟨-, t, ht, -, hstate⟩ :=
    cancel_ends hw hsession rfl hsignals windingUp w' (by simp [windingUp]) hmore
  rw [hlast, Option.some.injEq] at ht
  subst ht
  rcases hstate with ⟨hrunning, -⟩ | ⟨code, hcode, hexit, -⟩
  · cases hrunning
  · cases hcode
    exact ⟨w, w', hw, hsignals, hsession, hmore, hlast, hexit⟩

/-- The interpreter exits while the process holds the streams, and its code is reported although the
run is cancelled. -/
theorem cancel_keeps_code :
    ∃ w w', desk.steps? (lending ++ [.inside 1 (.finish (.exited 5))]) = some w ∧
      w.ledger.session = some ⟨1, ['a'], .running, []⟩ ∧ w.signals = .delivered ∧
      w.cancel.steps? windingUp = some w' ∧
      w'.ledger.session = some ⟨1, ['a'], .completed (some 5), []⟩ ∧
      w'.ledger.lastExit = some 5 := by
  have hend : (desk.steps? (lending ++ [.inside 1 (.finish (.exited 5))] ++
      .cancel :: windingUp)).isSome = true := by decide +kernel
  obtain ⟨w', hw'⟩ := Option.isSome_iff_exists.1 hend
  have hboth := hw'
  rw [steps?, Schedule.after?_append] at hboth
  obtain ⟨w, hw, hmore⟩ := Option.bind_eq_some_iff.1 hboth
  refine ⟨w, w', hw, ?_, ?_, hmore, ?_, ?_⟩
  · exact Schedule.eq_of_map_after? (f := fun w : Workbench => w.ledger.session) hw
      (by decide +kernel)
  · exact Schedule.eq_of_map_after? (f := fun w : Workbench => w.signals) hw (by decide +kernel)
  · exact Schedule.eq_of_map_after? (f := fun w : Workbench => w.ledger.session) hw'
      (by decide +kernel)
  · exact Schedule.eq_of_map_after? (f := fun w : Workbench => w.ledger.lastExit) hw'
      (by decide +kernel)

end Workbench

end ScriptWorkbench
