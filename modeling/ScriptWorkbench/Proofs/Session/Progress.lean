import ScriptWorkbench.Proofs.Run.Ending
import ScriptWorkbench.Proofs.Session.Isolation

/-!
# Sessions come to their end

Once the interpreter of the current session has ended and both its streams are closed, the readers
and the waiter of its run, together with its pump, have a bounded number of steps before them, and
they stop only when the session is completed (`Workbench.own_steps`).
-/

set_option autoImplicit false

namespace ScriptWorkbench

namespace Workbench

/-- Whether a step is one that a reader, the waiter or the pump of a run takes by itself. -/
def Step.isOwnOf (id : SessionId) : Step → Bool
  | .inside i x => i = id && x.isOwn
  | .pump i => i = id
  | _ => false

/-- Whether a step leaves the current session and the subscribers alone, but for what the runs
say. -/
def Step.isUnattended : Step → Bool
  | .run _ _ | .cancel | .subscribe | .unsubscribe _ => false
  | _ => true

/-- A run goes on by itself without anyone attending to it. -/
theorem Step.isUnattended_of_isOwnOf {id : SessionId} {x : Step} (h : x.isOwnOf id = true) :
    x.isUnattended = true := by
  cases x <;> first | rfl | cases h

/-- The current session stays the current one as long as no run begins, and once it has come to its
end it stays as it is. -/
theorem session_step {w w' : Workbench} {s : Session} (hs : w.ledger.session = some s) {x : Step}
    (hx : w.step? x = some w') (hrest : x.isUnattended = true) :
    ∃ t, w'.ledger.session = some t ∧ t.id = s.id ∧ t.isHeard = s.isHeard ∧
      (s.state ≠ .running → t = s) ∧ w'.ledger.issued = w.ledger.issued := by
  cases x with
  | pump i =>
    obtain ⟨r, e, es, -, -, rfl⟩ := pump_cases hx
    change ∃ t, (w.ledger.move (.notice i (.ofEvent e))).session = some t ∧ t.id = s.id ∧
      t.isHeard = s.isHeard ∧ (s.state ≠ .running → t = s) ∧
      (w.ledger.move (.notice i (.ofEvent e))).issued = w.ledger.issued
    rw [Ledger.issued_move]
    cases hpending : w.ledger.isPending i with
    | false =>
      rw [Ledger.move, Ledger.apply_of_not_isPending hpending]
      exact ⟨s, hs, rfl, rfl, fun _ => rfl, rfl⟩
    | true =>
      obtain ⟨t, ht, rfl, hrunning⟩ := Ledger.isPending_iff.1 hpending
      rw [hs, Option.some.injEq] at ht
      subst ht
      refine ⟨s.after e, Ledger.session_notice hs hrunning e, ?_, ?_,
        fun hover => absurd hrunning hover, rfl⟩
      · cases e <;> rfl
      · cases e <;> simp [Session.after, Notice.ofEvent, Session.isHeard, hrunning]
  | inside i y =>
    obtain ⟨r, r', -, -, rfl⟩ := inside_cases hx
    exact ⟨s, hs, rfl, rfl, fun _ => rfl, rfl⟩
  | look i =>
    simp only [step?] at hx
    split at hx
    · cases hx
    · split at hx <;> cases hx
      exact ⟨s, hs, rfl, rfl, fun _ => rfl, rfl⟩
  | empty i | await i | meddle machine | permit reply =>
    simp only [step?, Option.some.injEq] at hx
    subst hx
    exact ⟨s, hs, rfl, rfl, fun _ => rfl, rfl⟩
  | run script hitch | cancel | subscribe | unsubscribe i => cases hrest

/-- Without a new run the session stays the current one, and it stays as it is once it is over. -/
theorem session_steps {steps : List Step} {w w' : Workbench} {s : Session}
    (hs : w.ledger.session = some s) (hrest : ∀ x ∈ steps, x.isUnattended = true)
    (h : w.steps? steps = some w') :
    ∃ t, w'.ledger.session = some t ∧ t.id = s.id ∧ t.isHeard = s.isHeard ∧
      (s.state ≠ .running → t = s) ∧ w'.ledger.issued = w.ledger.issued := by
  induction steps generalizing w s with
  | nil =>
    cases h
    exact ⟨s, hs, rfl, rfl, fun _ => rfl, rfl⟩
  | cons x steps ih =>
    obtain ⟨u, hu, hlater⟩ := Option.bind_eq_some_iff.1 h
    obtain ⟨t, ht, hid, hheard, hover, hissued⟩ := session_step hs hu (hrest x List.mem_cons_self)
    obtain ⟨t', ht', hid', hheard', hover', hissued'⟩ :=
      ih ht (fun y hy => hrest y (List.mem_cons_of_mem x hy)) hlater
    refine ⟨t', ht', hid'.trans hid, hheard'.trans hheard, ?_, hissued'.trans hissued⟩
    intro hended
    obtain rfl := hover hended
    exact hover' hended

/-- A step of a run is one of its readers, its waiter or its pump. -/
theorem own_step {w w' : Workbench} {id : SessionId} {x : Step} (hx : w.step? x = some w')
    (hown : x.isOwnOf id = true) :
    ∃ y : Run.Step, (y.isOwn = true ∨ y = .take) ∧ (w.view id).step? y = some (w'.view id) := by
  have hrun := run_step id w x w' hx
  have hone : ∀ y : Run.Step, (w.view id).steps? [y] = (w.view id).step? y := by
    intro y
    simp [Run.steps?, Schedule.after?]
  cases x with
  | inside i y =>
    simp only [Step.isOwnOf, Bool.and_eq_true, decide_eq_true_eq] at hown
    obtain ⟨rfl, hy⟩ := hown
    rw [runMoves, if_pos rfl, hone] at hrun
    exact ⟨y, Or.inl hy, hrun⟩
  | pump i =>
    simp only [Step.isOwnOf, decide_eq_true_eq] at hown
    rw [runMoves, if_pos hown, hone] at hrun
    exact ⟨.take, Or.inr rfl, hrun⟩
  | run script hitch | cancel | subscribe | unsubscribe i | empty i | await i | look i
  | meddle machine | permit reply => cases hown

variable {machine : Machine} {plan : Plan} {steps : List Step} {w w' : Workbench}

/-- As long as the current session runs, its own run or its pump can act, if no reader waits for
more bytes and the waiter does not wait for the interpreter. -/
theorem exists_own_of_running (h : (new machine plan).steps? steps = some w) {s : Session}
    (hs : w.ledger.session = some s) (hrunning : s.state = .running)
    (hstatus : (w.view s.id).waiter = .polling → (w.view s.id).status.isSome = true)
    (hclosed : ∀ t, (w.view s.id).isOpen t = false ∨ ((w.view s.id).feed t).isDone = true) :
    ∃ x : Step, x.isOwnOf s.id = true ∧ (w.step? x).isSome = true := by
  have hmirrors := mirrors h
  have hheard : s.isHeard = true := by simp [Session.isHeard, hrunning]
  have hl := hmirrors.listening hs hheard
  obtain ⟨r, hr, -⟩ := Option.map_eq_some_iff.1 ((hmirrors.heard s hs).2 hheard)
  have hview : w.view s.id = r := by simp [view, hr]
  cases hqueue : (w.view s.id).queue with
  | cons e es =>
    refine ⟨.pump s.id, by simp [Step.isOwnOf], ?_⟩
    rw [hview] at hqueue
    simp [step?, pump?, hr, hqueue]
  | nil =>
    cases hover : (w.view s.id).isOver with
    | false =>
      obtain ⟨x, hx, hpossible⟩ := Run.exists_isOwn_of_not_isOver hstatus hclosed hover
      refine ⟨.inside s.id x, by simp [Step.isOwnOf, hx], ?_⟩
      rw [hview] at hpossible
      cases x with
      | kill reply | take | hangUp => cases hx
      | write t bytes | close t | bequeath t | release t | finish status | read t n | interrupt t
      | readEnd t | readFail t | send t | join | poll | pollFail | report =>
        simpa [step?, hr] using hpossible
    | true =>
      -- everything that the run said has been taken, the exit too
      have hrun : ({} : Run).steps? _ = some (w.view s.id) := run_steps s.id h
      obtain ⟨lines, code, hsent, -⟩ := (Run.orderly hrun).exit hover
      have hall := pumped_append_queue h hl
      rw [hqueue, List.append_nil, history_said s.id h] at hall
      have hexit : .exited code ∈ (new machine plan).history (pumped s.id) steps := by
        rw [hall, show (view s.id (new machine plan)).history Run.sent _ = _ from hsent]
        exact List.mem_append_right _ List.mem_cons_self
      have hcompleted := ((hmirrors.follows s hs).completed_iff code).2 hexit
      rw [hrunning] at hcompleted
      cases hcompleted

/-- Readers, waiter and pump of the current session's run have only so much to do, and they stop
only when the session is completed. -/
theorem own_steps (h : (new machine plan).steps? steps = some w) {s : Session}
    (hs : w.ledger.session = some s) (hheard : s.isHeard = true)
    (hstatus : (w.view s.id).status.isSome = true)
    (hclosed : ∀ t, (w.view s.id).isOpen t = false) {own : List Step}
    (hown : ∀ x ∈ own, x.isOwnOf s.id = true) (hw' : w.steps? own = some w') :
    own.length + (w'.view s.id).effort ≤ (w.view s.id).effort ∧
      ((∃ t code, w'.ledger.session = some t ∧ t.id = s.id ∧ t.state = .completed code) ∨
        ∃ x : Step, x.isOwnOf s.id = true ∧ (w'.step? x).isSome = true) := by
  induction own generalizing steps w s with
  | nil =>
    cases hw'
    refine ⟨by simp, ?_⟩
    cases hstate : s.state with
    | running =>
      exact Or.inr
        (exists_own_of_running h hs hstate (fun _ => hstatus) fun t => Or.inl (hclosed t))
    | completed code => exact Or.inl ⟨s, code, hs, rfl, hstate⟩
    | failed cause => simp [Session.isHeard, hstate] at hheard
  | cons x own ih =>
    obtain ⟨u, hu, hrest⟩ := Option.bind_eq_some_iff.1 hw'
    have hx := hown x List.mem_cons_self
    have hsteps : (new machine plan).steps? (steps ++ [x]) = some u := by
      rw [steps?, Schedule.after?_concat]
      exact Option.bind_eq_some_iff.2 ⟨w, h, hu⟩
    -- the session keeps its number, so the rest of the row belongs to the same run
    obtain ⟨y, hy, hmove⟩ := own_step hu hx
    have hlt := Run.effort_lt hmove hy hstatus
    obtain ⟨t, ht, hid, hsame, -⟩ := session_step hs hu (Step.isUnattended_of_isOwnOf hx)
    have hstatus' : (u.view t.id).status.isSome = true := by
      rw [hid]
      exact Run.isSome_status_step hmove hstatus
    have hclosed' : ∀ k, (u.view t.id).isOpen k = false := by
      intro k
      rw [hid]
      exact Run.isOpen_of_move (Run.feed_move hmove k) (hclosed k)
    have hown' : ∀ z ∈ own, z.isOwnOf t.id = true := by
      intro z hz
      rw [hid]
      exact hown z (List.mem_cons_of_mem x hz)
    obtain ⟨hlen, hstuck⟩ := ih hsteps ht (hsame.trans hheard) hstatus' hclosed' hown' hrest
    rw [hid] at hlen hstuck
    refine ⟨?_, hstuck⟩
    rw [List.length_cons]
    omega

end Workbench

end ScriptWorkbench
