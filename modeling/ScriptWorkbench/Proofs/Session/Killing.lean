import ScriptWorkbench.Proofs.Session.Isolation

/-!
# Which run is killed

The ledger names the run that a cancellation kills.  Exits of superseded runs may arrive at any
time, but they change nothing, so the run that is named is always the one in progress
(`Ledger.AimsAtCurrent`).  A cancellation, a superseding run and the end of the workbench kill that
run and no other, and no run that was started is ever forgotten: it is in progress, or its exit has
been taken in, or it was killed (`Workbench.killer_own`).
-/

set_option autoImplicit false

namespace ScriptWorkbench

namespace Ledger

/-- The run that a cancellation kills is the one whose session is running. -/
def AimsAtCurrent (l : Ledger) : Prop :=
  ∀ id, l.killer = some id ↔ l.isPending id = true

/-- A new run is the one to be killed if it was started, and else none is. -/
theorem killer_enter (l : Ledger) (script : Text) (started : Except Failure Unit) :
    (l.enter script started).killer =
      match started with
      | .ok _ => some (l.issued + 1)
      | .error _ => none := by
  cases started <;> rfl

/-- After a run was entered only the new one can be pending, and it is if it was started. -/
theorem isPending_enter (l : Ledger) (script : Text) (started : Except Failure Unit)
    (id : SessionId) :
    (l.enter script started).isPending id = true ↔ l.issued + 1 = id ∧ started = .ok () := by
  rw [isPending_iff, session_enter]
  cases started <;> simp

/-- No move makes the ledger aim at another run than the running one. -/
theorem AimsAtCurrent.move {l : Ledger} (h : l.AimsAtCurrent) (m : Move) :
    (l.move m).AimsAtCurrent := by
  intro id
  cases m with
  | enter script started =>
    rw [Ledger.move, killer_enter, isPending_enter]
    cases started <;> simp
  | notice i n =>
    cases hpending : l.isPending i with
    | false =>
      rw [Ledger.move, apply_of_not_isPending hpending]
      exact h id
    | true =>
      obtain ⟨s, hs, rfl, hrunning⟩ := isPending_iff.1 hpending
      cases n with
      | output entry =>
        rw [Ledger.move, apply_output hs hrunning, isPending_iff]
        show l.killer = some id ↔ _
        rw [h id, isPending_iff]
        simp [publish, hs]
      | exited code =>
        rw [Ledger.move, apply_exited hs hrunning, isPending_iff]
        simp [publish, ring]
  | subscribe | unsubscribe i | empty i => exact h id

/-- No row of moves makes the ledger aim at another run than the running one. -/
theorem AimsAtCurrent.after {l l' : Ledger} {moves : List Move} (h : l.AimsAtCurrent)
    (hmoves : l.moves? moves = some l') : l'.AimsAtCurrent := by
  refine Schedule.invariant ?_ h hmoves
  intro l m l' hl hm
  cases hm
  exact hl.move m

/-- A ledger without a session aims at nothing. -/
theorem aimsAtCurrent_empty : ({} : Ledger).AimsAtCurrent := by
  intro id
  simp [isPending, running?]

end Ledger

namespace Workbench

variable {machine : Machine} {plan : Plan} {steps : List Step} {w w' : Workbench}

/-- A workbench aims at the running session, whatever the schedule. -/
theorem aimsAtCurrent (h : (new machine plan).steps? steps = some w) :
    w.ledger.AimsAtCurrent :=
  Ledger.aimsAtCurrent_empty.after (ledger_steps h)

/-! ## What a kill does -/

/-- A run as it is after a kill of the run in progress. -/
def struck (w : Workbench) (id : SessionId) : Option Run :=
  if w.ledger.isPending id then (w.run? id).map (·.kill w.signals) else w.run? id

/-- A ledger that aims at the running session kills that run and no other. -/
theorem run?_killCurrent_of_aims (h : w.ledger.AimsAtCurrent) (id : SessionId) :
    w.killCurrent.run? id = w.struck id := by
  simp only [run?_killCurrent, h id, struck]

/-- A kill strikes the run of the running session and no other. -/
theorem run?_killCurrent_eq_struck (h : (new machine plan).steps? steps = some w)
    (id : SessionId) : w.killCurrent.run? id = w.struck id :=
  run?_killCurrent_of_aims (aimsAtCurrent h) id

/-- No run has the number that is given next. -/
theorem run?_issued_succ (h : (new machine plan).steps? steps = some w) :
    w.run? (w.ledger.issued + 1) = none := by
  have hvoice := ((mirrors h).ahead (w.ledger.issued + 1) (Nat.lt_succ_self _)).1
  exact Option.map_eq_none_iff.1 hvoice

/-- The run of the current session is there as long as the session is running, and it was begun with
the script of the session. -/
theorem exists_run?_of_isPending (h : (new machine plan).steps? steps = some w) {id : SessionId}
    (hpending : w.ledger.isPending id = true) :
    ∃ s r, w.ledger.session = some s ∧ w.run? id = some r ∧ r.listening = true ∧
      (id, s.script) ∈ (new machine plan).history begun steps := by
  obtain ⟨s, hs, rfl, hrunning⟩ := Ledger.isPending_iff.1 hpending
  have hheard : s.isHeard = true := by simp [Session.isHeard, hrunning]
  obtain ⟨r, hr, hl⟩ := Option.map_eq_some_iff.1 (((mirrors h).heard s hs).2 hheard)
  exact ⟨s, r, hs, hr, hl, ((mirrors h).script s hs s.script).2 rfl⟩

/-! ## No run is forgotten -/

/-- A run is there from the step on that starts it. -/
theorem isSome_run?_step {x : Step} (hx : w.step? x = some w') (id : SessionId) :
    (w'.run? id).isSome ↔ (w.run? id).isSome ∨ id ∈ w.spawned x := by
  have hvoice := congrArg Option.isSome (voice_step hx id)
  simp only [voice, Option.isSome_map, Option.isSome_or] at hvoice
  rw [hvoice, Bool.or_eq_true]
  refine or_congr_right ?_
  cases x with
  | run script hitch =>
    by_cases hid : id = w.ledger.issued + 1
    · subst hid
      simp only [if_true, spawned]
      cases w.started script hitch with
      | ok _ => simp [newcomer]
      | error cause => cases cause <;> simp [newcomer]
    · simp only [hid, if_false, spawned]
      split <;> simp [hid]
  | cancel | subscribe | unsubscribe i | empty i | await i | look i | pump i | inside i y
  | meddle machine | permit reply => simp [spawned]

/-- The runs that there are are those that were started. -/
theorem mem_history_spawned_iff (h : (new machine plan).steps? steps = some w) (id : SessionId) :
    id ∈ (new machine plan).history spawned steps ↔ (w.run? id).isSome := by
  refine Schedule.concat_induction
    (P := fun steps w => id ∈ (new machine plan).history spawned steps ↔ (w.run? id).isSome)
    ?_ ?_ h
  · simp [Schedule.along, new, run?]
  · intro steps w x w' hw ih hx
    rw [history, Schedule.along_concat hw hx, List.mem_append, ih, isSome_run?_step hx]

/-- The runs that a step kills are those in which a kill happens. -/
theorem mem_killed_iff (h : (new machine plan).steps? steps = some w) {x : Step}
    (hx : w.step? x = some w') (id : SessionId) :
    id ∈ w.killed x ↔ ∃ reply, .kill reply ∈ w.runMoves id x := by
  have hstrikes : id ∈ w.ledger.killer.toList ↔ ∃ reply, .kill reply ∈ w.strikes id := by
    rw [Option.mem_toList, strikes]
    constructor
    · intro hkiller
      obtain ⟨-, r, -, hr, -⟩ := exists_run?_of_isPending h ((aimsAtCurrent h id).1 hkiller)
      exact ⟨w.signals, by simp [hkiller, hr]⟩
    · rintro ⟨reply, hmem⟩
      split at hmem
      · rename_i hstruck
        exact hstruck.1
      · exact absurd hmem List.not_mem_nil
  cases x with
  | run script hitch =>
    simp only [killed, runMoves, List.mem_append, hstrikes, exists_or]
    refine or_congr_right ?_
    cases w.started script hitch with
    | ok _ => simp
    | error cause =>
      cases cause with
      | launch _ => simp
      | pump _ =>
        by_cases hid : id = w.ledger.issued + 1
        · simp [hid, run?_issued_succ h]
        · simp [hid]
  | cancel => exact hstrikes
  | inside i y =>
    -- nothing inside a run kills it
    have hy : ∀ reply, y ≠ .kill reply := by
      rintro reply rfl
      cases hx
    simp only [killed, runMoves, List.not_mem_nil, false_iff, not_exists]
    intro reply hmem
    split at hmem
    · exact hy reply (List.mem_singleton.1 hmem).symm
    · exact List.not_mem_nil hmem
  | pump i =>
    simp only [killed, runMoves]
    split <;> simp
  | subscribe | unsubscribe i | empty i | await i | look i | meddle machine | permit reply =>
    simp [killed, runMoves]

/-- A run was killed exactly if it took a kill among its own steps. -/
theorem mem_history_killed_iff (h : (new machine plan).steps? steps = some w) (id : SessionId) :
    id ∈ (new machine plan).history killed steps ↔
      ∃ reply, .kill reply ∈ (new machine plan).history (runMoves id) steps := by
  refine Schedule.concat_induction
    (P := fun steps _ => id ∈ (new machine plan).history killed steps ↔
      ∃ reply, .kill reply ∈ (new machine plan).history (runMoves id) steps) ?_ ?_ h
  · simp [Schedule.along]
  · intro steps w x w' hw ih hx
    simp only [history, Schedule.along_concat hw hx, List.mem_append, exists_or]
    exact or_congr ih (mem_killed_iff hw hx id)

/-- A step that ends the session of a run in progress takes in its exit or kills it. -/
theorem isPending_step (h : (new machine plan).steps? steps = some w) {x : Step}
    (hx : w.step? x = some w') {id : SessionId} (hpending : w.ledger.isPending id = true) :
    w'.ledger.isPending id = true ∨ (∃ code, .state id (.completed code) ∈ w.announced x) ∨
      id ∈ w.killed x := by
  have hmoves := ledger_step w x w' hx
  cases x with
  | run script hitch =>
    right; right
    have hkiller := (aimsAtCurrent h id).2 hpending
    exact List.mem_append_left _ (Option.mem_toList.2 hkiller)
  | pump i =>
    by_cases hi : i = id
    · subst hi
      obtain ⟨s, hs, rfl, hrunning⟩ := Ledger.isPending_iff.1 hpending
      obtain ⟨r, e, es, hr, hqueue, rfl⟩ := pump_cases hx
      cases e with
      | line t text =>
        left
        refine Ledger.isPending_iff.2 ⟨_, Ledger.session_notice hs hrunning (.line t text), ?_⟩
        exact ⟨rfl, hrunning⟩
      | exited code =>
        right; left
        exact ⟨code, by simp [announced, hpending, pumped, hr, hqueue, Update.ofNotice,
          Notice.ofEvent]⟩
    · left
      obtain ⟨s, hs, rfl, -⟩ := Ledger.isPending_iff.1 hpending
      rw [ledger_pump_other hs hi hx]
      exact hpending
  | cancel | subscribe | unsubscribe i | empty i | await i | look i | inside i y | meddle machine
  | permit reply =>
    left
    simp only [moves, Schedule.after?, Ledger.step?, Option.bind_some, Option.some.injEq] at hmoves
    rw [← hmoves]
    exact hpending

/-- A run that was started is in progress, or its exit has been taken in, or it was killed. -/
theorem not_forgotten (h : (new machine plan).steps? steps = some w) {id : SessionId}
    (hid : id ∈ (new machine plan).history spawned steps) :
    w.ledger.isPending id = true ∨
      (∃ code, .state id (.completed code) ∈ (new machine plan).history announced steps) ∨
      id ∈ (new machine plan).history killed steps := by
  revert hid
  refine Schedule.concat_induction
    (P := fun steps w => id ∈ (new machine plan).history spawned steps →
      w.ledger.isPending id = true ∨
        (∃ code, .state id (.completed code) ∈ (new machine plan).history announced steps) ∨
        id ∈ (new machine plan).history killed steps) ?_ ?_ h
  · intro hid
    exact absurd hid List.not_mem_nil
  · intro steps w x w' hw ih hx hid
    simp only [history, Schedule.along_concat hw hx, List.mem_append, exists_or] at hid ⊢
    rcases hid with hid | hid
    · rcases ih hid with hpending | hexit | hkilled
      · rcases isPending_step hw hx hpending with hstill | hexit | hkilled
        · exact Or.inl hstill
        · exact Or.inr (Or.inl (Or.inr hexit))
        · exact Or.inr (Or.inr (Or.inr hkilled))
      · exact Or.inr (Or.inl (Or.inl hexit))
      · exact Or.inr (Or.inr (Or.inl hkilled))
    · -- the run is new: it is in progress, or it was killed for want of a pump
      cases x with
      | run script hitch =>
        rw [← Option.some.inj hx, ledger_run, Ledger.isPending_enter]
        simp only [spawned] at hid
        cases hstarted : w.started script hitch with
        | ok _ =>
          simp only [hstarted, List.mem_singleton] at hid
          exact Or.inl ⟨hid.symm, rfl⟩
        | error cause =>
          cases cause with
          | launch _ => simp [hstarted] at hid
          | pump _ =>
            simp only [hstarted] at hid
            right; right; right
            simp only [killed, hstarted]
            exact List.mem_append_right _ hid
      | cancel | subscribe | unsubscribe i | empty i | await i | look i | pump i | inside i y
      | meddle machine | permit reply => exact absurd hid List.not_mem_nil

/-- The killer that the ledger keeps is that of the current session's own run, and it is there
exactly as long as this session is running.  So a cancellation, a superseding run and the end of the
workbench kill this run and no other; a new run that gets no pump is killed as well, while its own
session is the current one.  Every run that was started is still there, and it is in progress, or
its exit has been taken in, or it was killed, whatever became of the runs after it. -/
theorem killer_own (h : (new machine plan).steps? steps = some w) :
    let start := new machine plan
    (∀ id, w.ledger.killer = some id ↔
      ∃ s, w.ledger.session = some s ∧ s.id = id ∧ s.state = .running) ∧
    (∀ id, w.ledger.killer = some id → ∃ s r, w.ledger.session = some s ∧ w.run? id = some r ∧
      r.listening = true ∧ (id, s.script) ∈ start.history begun steps) ∧
    (∀ id, w.cancel.run? id = w.struck id) ∧
    (∀ script hitch,
      (w.run script hitch).run? (w.ledger.issued + 1) = w.newcomer (w.started script hitch) ∧
      ∀ id, id ≠ w.ledger.issued + 1 → (w.run script hitch).run? id = w.struck id) ∧
    ((∀ id, w.dismiss.run? id = w.struck id) ∧ w.dismiss.ledger.killer = none) ∧
    (∀ id, id ∈ start.history spawned steps ↔ (w.run? id).isSome) ∧
    (∀ id r, w.run? id = some r → ({} : Run).steps? (start.history (runMoves id) steps) = some r) ∧
    (∀ id ∈ start.history spawned steps,
      w.ledger.isPending id = true ∨
      (∃ code, .state id (.completed code) ∈ start.history announced steps) ∨
      ∃ reply, .kill reply ∈ start.history (runMoves id) steps) := by
  intro start
  refine ⟨?_, ?_, run?_killCurrent_eq_struck h, ?_, ⟨run?_killCurrent_eq_struck h, rfl⟩,
    mem_history_spawned_iff h, ?_, ?_⟩
  · intro id
    rw [aimsAtCurrent h id, Ledger.isPending_iff]
  · intro id hkiller
    exact exists_run?_of_isPending h ((aimsAtCurrent h id).1 hkiller)
  · intro script hitch
    refine ⟨?_, ?_⟩
    · rw [run?_run, (isNone_killCurrent w _).2 (run?_issued_succ h), Option.none_or, if_pos rfl]
    · intro id hid
      rw [run?_run, if_neg hid, Option.or_none, run?_killCurrent_eq_struck h]
  · intro id r hr
    have hrun : ({} : Run).steps? _ = some (w.view id) := run_steps id h
    rwa [view, hr] at hrun
  · intro id hid
    rw [← mem_history_killed_iff h]
    exact not_forgotten h hid

/-- The exit of the first run arrives while the second one is in progress. -/
def lateExit : List Step :=
  [.run ['a'] none, .inside 1 (.finish (.exited 0)), .inside 1 (.readEnd .stdout),
    .inside 1 (.readEnd .stderr), .inside 1 .join, .inside 1 .poll, .inside 1 .report,
    .run ['b'] none, .pump 1]

/-- The exit of the superseded run comes late and does not take the kill away from the run in
progress. -/
theorem killer_own_late_exit :
    ∃ w, desk.steps? lateExit = some w ∧ desk.history (pumped 1) lateExit = [.exited (some 0)] ∧
      w.ledger.killer = some 2 ∧
      (w.run ['c'] (some (.pipe .stdout))).run? 2 = some (({} : Run).kill .delivered) ∧
      ∃ reply, .kill reply ∈ desk.history (runMoves 1) lateExit := by
  have hend : (desk.steps? lateExit).isSome = true := by decide +kernel
  obtain ⟨w, hw⟩ := Option.isSome_iff_exists.1 hend
  have hsession : w.ledger.session = some ⟨2, ['b'], .running, []⟩ :=
    Schedule.eq_of_map_after? (f := fun w : Workbench => w.ledger.session) hw (by decide +kernel)
  have hstruck : w.struck 2 = some (({} : Run).kill .delivered) :=
    Schedule.eq_of_map_after? (f := fun w : Workbench => w.struck 2) hw (by decide +kernel)
  have hissued : w.ledger.issued = 2 :=
    Schedule.eq_of_map_after? (f := fun w : Workbench => w.ledger.issued) hw (by decide +kernel)
  obtain ⟨hkiller, -, -, hrun, -, -, -, hall⟩ := killer_own hw
  refine ⟨w, hw, by decide +kernel, (hkiller 2).2 ⟨_, hsession, rfl, rfl⟩, ?_, ?_⟩
  · rw [← hstruck]
    refine (hrun ['c'] (some (.pipe .stdout))).2 2 ?_
    rw [hissued]
    decide
  · rcases hall 1 (by decide +kernel) with hpending | ⟨code, hexit⟩ | hkilled
    · obtain ⟨s, hs, hid, -⟩ := Ledger.isPending_iff.1 hpending
      rw [hsession, Option.some.injEq] at hs
      subst hs
      cases hid
    · have hannounced : desk.history announced lateExit =
          [.state 1 .running, .state 2 .running] := by
        decide +kernel
      have hmem : Update.state 1 (.completed code) ∈ desk.history announced lateExit := hexit
      rw [hannounced] at hmem
      simp at hmem
    · exact hkilled

end Workbench

end ScriptWorkbench
