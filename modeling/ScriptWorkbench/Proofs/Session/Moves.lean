import ScriptWorkbench.Session.History

/-!
# A ledger by itself

`Ledger.Move` lists what can happen to a ledger, whoever causes it: runs are entered, notices of any
run arrive in any order, subscribers come, look and go.  A schedule of a workbench is a schedule of
its ledger (`Workbench.ledger_steps`), so what holds of every ledger holds of every workbench.
-/

set_option autoImplicit false

namespace ScriptWorkbench

namespace Ledger

/-- What can happen to a ledger. -/
inductive Move
  | enter (script : Text) (started : Except Failure Unit)
  | notice (id : SessionId) (n : Notice)
  | subscribe
  | unsubscribe (subscriber : Nat)
  | empty (subscriber : Nat)

/-- What a move makes of a ledger. -/
def move (l : Ledger) : Move → Ledger
  | .enter script started => l.enter script started
  | .notice id n => (l.apply id n).1
  | .subscribe => l.subscribe
  | .unsubscribe i => l.unsubscribe i
  | .empty i => l.empty i

/-- Every move is possible. -/
def step? (l : Ledger) (m : Move) : Option Ledger :=
  some (l.move m)

/-- The updates that a move announces. -/
def announced (l : Ledger) : Move → List Update
  | .enter _ started =>
    .state (l.issued + 1) .running ::
      match started with
      | .ok _ => []
      | .error cause => [.state (l.issued + 1) (.failed cause)]
  | .notice id n => if l.isPending id then [Update.ofNotice id n] else []
  | _ => []

/-- What a subscriber finds in a move. -/
def received (subscriber : Nat) (l : Ledger) : Move → List Update
  | .empty i => if i = subscriber then (l.inbox? i).getD [] else []
  | _ => []

/-- The session that a move replaces, as it was last. -/
def retired (l : Ledger) : Move → List Session
  | .enter _ _ => l.session.toList
  | _ => []

/-- What an observation shows along a row of moves. -/
abbrev history {α : Type} (l : Ledger) (see : Ledger → Move → List α) (moves : List Move) :
    List α :=
  Schedule.along step? see l moves

/-- What a row of moves makes of a ledger. -/
abbrev moves? (l : Ledger) (moves : List Move) : Option Ledger :=
  Schedule.after? step? l moves

/-- A number runs exactly if it is that of the current session and that is running. -/
theorem running?_eq_some_iff {l : Ledger} {id : SessionId} {s : Session} :
    l.running? id = some s ↔ l.session = some s ∧ s.id = id ∧ s.state = .running := by
  simp [running?, Option.filter_eq_some_iff]

/-- A caller waits on exactly for the current session while it is running. -/
theorem isPending_iff {l : Ledger} {id : SessionId} :
    l.isPending id = true ↔ ∃ s, l.session = some s ∧ s.id = id ∧ s.state = .running := by
  simp only [isPending, Option.isSome_iff_exists, running?_eq_some_iff]

/-- A line of the current session, if that is running, is added to its output and published. -/
theorem apply_output {l : Ledger} {s : Session} (hs : l.session = some s)
    (hrunning : s.state = .running) (entry : Entry) :
    (l.apply s.id (.output entry)).1 =
      ({ l with session := some { s with output := s.output ++ [entry] } } : Ledger).publish
        (.output s.id entry) := by
  have h := running?_eq_some_iff.2 ⟨hs, rfl, hrunning⟩
  simp [apply, h]

/-- The exit of the current session, if that is running, completes it. -/
theorem apply_exited {l : Ledger} {s : Session} (hs : l.session = some s)
    (hrunning : s.state = .running) (code : Option ExitCode) :
    (l.apply s.id (.exited code)).1 =
      (({ l with
          killer := none, lastExit := code,
          session := some { s with state := .completed code } } : Ledger).publish
        (.state s.id (.completed code))).ring := by
  have h := running?_eq_some_iff.2 ⟨hs, rfl, hrunning⟩
  simp [apply, h, setState, hs]

/-- A notice of another session, or one that comes after the end, changes nothing. -/
theorem apply_of_not_isPending {l : Ledger} {id : SessionId} (h : l.isPending id = false)
    (n : Notice) : (l.apply id n).1 = l := by
  have hnone : l.running? id = none := by simpa [isPending] using h
  rw [apply_eq_self hnone]

/-- The session of a run that is entered. -/
theorem session_enter (l : Ledger) (script : Text) (started : Except Failure Unit) :
    (l.enter script started).session = some ⟨l.issued + 1, script,
      match started with
      | .ok _ => .running
      | .error cause => .failed cause, []⟩ := by
  cases started <;> simp [enter, supersede, setState, publish, ring]

/-- Only a new run takes a number. -/
theorem issued_move (l : Ledger) (m : Move) :
    (l.move m).issued =
      match m with
      | .enter _ _ => l.issued + 1
      | _ => l.issued := by
  cases m with
  | enter script started => cases started <;> rfl
  | notice id n =>
    cases hpending : l.isPending id with
    | false => simp [move, apply_of_not_isPending hpending]
    | true =>
      obtain ⟨s, hs, rfl, hrunning⟩ := isPending_iff.1 hpending
      cases n with
      | output entry =>
        rw [move, apply_output hs hrunning]
        rfl
      | exited code =>
        rw [move, apply_exited hs hrunning]
        rfl
  | subscribe | unsubscribe i | empty i => rfl

end Ledger

namespace Workbench

/-- What a step of a workbench does to its ledger. -/
def moves (w : Workbench) : Step → List Ledger.Move
  | .run script hitch => [.enter script (w.started script hitch)]
  | .subscribe => [.subscribe]
  | .unsubscribe i => [.unsubscribe i]
  | .empty i => [.empty i]
  | .pump id => (w.pumped id (.pump id)).map fun e => .notice id (.ofEvent e)
  | _ => []

/-- A kill touches nothing but runs. -/
@[simp]
theorem killCurrent_frame (w : Workbench) :
    w.killCurrent.ledger = w.ledger ∧ w.killCurrent.machine = w.machine ∧
      w.killCurrent.plan = w.plan ∧ w.killCurrent.signals = w.signals := by
  unfold killCurrent
  split <;> exact ⟨rfl, rfl, rfl, rfl⟩

/-- A pump takes the first event of the queue of its run. -/
theorem pump_cases {w w' : Workbench} {id : SessionId} (h : w.step? (.pump id) = some w') :
    ∃ r e es, w.run? id = some r ∧ r.queue = e :: es ∧
      w' = { w.modifyRun id (fun r => { r with queue := es }) with
        ledger := (w.ledger.apply id (.ofEvent e)).1 } := by
  simp only [step?, pump?] at h
  split at h
  · cases h
  · rename_i r hr
    split at h
    · cases h
    · rename_i e es hqueue
      cases h
      exact ⟨r, e, es, hr, hqueue, rfl⟩

/-- What happens inside a run leaves everything else alone. -/
theorem inside_cases {w w' : Workbench} {id : SessionId} {x : Run.Step}
    (h : w.step? (.inside id x) = some w') :
    ∃ r r', w.run? id = some r ∧ r.step? x = some r' ∧ w' = w.modifyRun id (fun _ => r') := by
  have hbind : ((w.run? id).bind fun r => r.step? x).map (fun r => w.modifyRun id fun _ => r) =
      some w' := by
    cases x <;> simp only [step?] at h <;> first | cases h | exact h
  obtain ⟨r', hr', rfl⟩ := Option.map_eq_some_iff.1 hbind
  obtain ⟨r, hr, hx⟩ := Option.bind_eq_some_iff.1 hr'
  exact ⟨r, r', hr, hx, rfl⟩

/-- A step of a workbench is a row of moves of its ledger. -/
theorem ledger_step (w : Workbench) (x : Step) (w' : Workbench) (h : w.step? x = some w') :
    w.ledger.moves? (w.moves x) = some w'.ledger := by
  cases x with
  | run script hitch =>
    simp only [step?, Option.some.injEq] at h
    subst h
    simp [moves, run, submit, enroll, started, Schedule.after?, Ledger.step?, Ledger.move]
  | cancel =>
    simp only [step?, Option.some.injEq] at h
    subst h
    exact congrArg some w.killCurrent_frame.1.symm
  | subscribe | unsubscribe i | empty i | await id | meddle machine | permit reply =>
    simp only [step?, Option.some.injEq] at h
    subst h
    rfl
  | look i =>
    simp only [step?] at h
    split at h
    · cases h
    · split at h <;> cases h
      rfl
  | pump id =>
    obtain ⟨r, e, es, hr, hqueue, rfl⟩ := pump_cases h
    simp [moves, pumped, hr, hqueue, Schedule.after?, Ledger.step?, Ledger.move]
  | inside id s =>
    obtain ⟨r, r', -, -, rfl⟩ := inside_cases h
    rfl

/-- A run is entered as it comes out. -/
theorem ledger_run (w : Workbench) (script : Text) (hitch : Option Hitch) :
    (w.run script hitch).ledger = w.ledger.enter script (w.started script hitch) :=
  (Option.some.inj (ledger_step w (.run script hitch) _ rfl)).symm

/-- Whoever runs a script is told the next number. -/
theorem submit_fst (w : Workbench) (script : Text) (hitch : Option Hitch) :
    (w.submit script hitch).1 = w.ledger.issued + 1 := by
  have hanswer : (w.submit script hitch).1 = (w.run script hitch).ledger.issued := rfl
  rw [hanswer, ledger_run, Ledger.issued_enter]

/-- A run begins under the next number. -/
theorem begun_run (w : Workbench) (script : Text) (hitch : Option Hitch) :
    w.begun (.run script hitch) = [(w.ledger.issued + 1, script)] := by
  rw [begun, submit_fst]

/-- A schedule of a workbench is a schedule of its ledger. -/
theorem ledger_steps {w w' : Workbench} {steps : List Step} (h : w.steps? steps = some w') :
    w.ledger.moves? (w.history moves steps) = some w'.ledger :=
  Schedule.after?_part ledger_step h

/-- A step announces what its moves announce. -/
theorem announced_step {w w' : Workbench} {x : Step} (h : w.step? x = some w') :
    w.announced x = w.ledger.history Ledger.announced (w.moves x) := by
  cases x with
  | run script hitch =>
    cases hstarted : w.started script hitch <;>
      simp [announced, moves, Schedule.along, Ledger.step?, Ledger.announced, hstarted]
  | pump id =>
    obtain ⟨r, e, es, hr, hqueue, -⟩ := pump_cases h
    simp [announced, moves, pumped, hr, hqueue, Schedule.along, Ledger.step?, Ledger.announced]
  | cancel | subscribe | unsubscribe i | empty i | await id | look i | inside id s | meddle machine
  | permit reply => rfl

/-- The updates of a workbench are those of its ledger. -/
theorem history_announced {w w' : Workbench} {steps : List Step} (h : w.steps? steps = some w') :
    w.history announced steps = w.ledger.history Ledger.announced (w.history moves steps) :=
  Schedule.along_part ledger_step (fun _ _ _ hx => announced_step hx) h

/-- What a subscriber finds on the workbench it finds on the ledger. -/
theorem history_received {w w' : Workbench} {steps : List Step} (i : Nat)
    (h : w.steps? steps = some w') :
    w.history (received i) steps =
      w.ledger.history (Ledger.received i) (w.history moves steps) := by
  refine Schedule.along_part ledger_step ?_ h
  intro w x w' hx
  cases x with
  | empty j => by_cases hj : j = i <;>
      simp [received, moves, Schedule.along, Ledger.step?, Ledger.received, hj]
  | pump id =>
    obtain ⟨r, e, es, hr, hqueue, -⟩ := pump_cases hx
    simp [received, moves, pumped, hr, hqueue, Schedule.along, Ledger.step?, Ledger.received]
  | run script hitch | cancel | subscribe | unsubscribe j | await id | look j | inside id s
  | meddle machine | permit reply => rfl

/-- A workbench with an interpreter at `/k`. -/
def desk : Workbench :=
  new ⟨[(['k'], .file [] true)], [], ['/'], []⟩ ⟨['/', 'k'], none, ['s'], 10⟩

end Workbench

end ScriptWorkbench
