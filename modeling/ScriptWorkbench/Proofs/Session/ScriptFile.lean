import ScriptWorkbench.Proofs.Session.LastExit
import ScriptWorkbench.Proofs.Session.Waiting

/-!
# Whose script is stored

Every run writes its script to one path, in the same step in which it kills the run in progress and
starts the interpreter.  The files of a machine decide how the last two come out; here the system
may refuse each of them besides, as a `Ruling` says, and a refused write may leave anything behind.
A `Workbench.Turn` is a step with a ruling, and nothing but runs writes the script path.

Whatever the rulings are, the script path holds the script of the current session unless just that
one could not be written (`Workbench.script_stored`).  A run that fails in either place leaves no
run of its own, has killed the run in progress and keeps the exit code of the last one.
-/

set_option autoImplicit false

namespace ScriptWorkbench

/-- How the system rules on a run, besides what the files of the machine decide. -/
inductive Ruling
  | fair
  /-- The script or a directory above it cannot be written, and the machine is left in any way. -/
  | unwritten (machine : Machine) (fault : Host.Fault)
  /-- The interpreter cannot be started. -/
  | unspawned (fault : Host.Fault)

namespace Machine

/-- Writes a script, making the directories above it, if the system lets it. -/
def writeUnder (ruling : Ruling) (m : Machine) (path script : Text) : Machine × Option Host.Fault :=
  match ruling with
  | .unwritten machine fault => (machine, some fault)
  | .fair | .unspawned _ => m.writeScript path script

/-- Checks that the interpreter can be started, and that the system lets it. -/
def startUnder (ruling : Ruling) (m : Machine) (p : Plan) : Except Host.Fault Unit :=
  match ruling with
  | .unspawned fault => .error fault
  | .fair | .unwritten _ _ => m.start p.interpreter p.arguments

/-- Writes the script and starts the interpreter, as far as the system lets it. -/
def launchUnder (ruling : Ruling) (m : Machine) (p : Plan) (script : Text) : Machine × Launched :=
  match m.writeUnder ruling p.scriptPath script with
  | (m, some f) => (m, .error (.writeScript p.scriptPath f))
  | (m, none) =>
    match m.startUnder ruling p with
    | .ok _ => (m, .ok ())
    | .error f => (m, .error (.spawn p.interpreter f))

variable {m : Machine} {p : Plan} {path script : Text} {ruling : Ruling} {fault : Host.Fault}

/-- A script that is written without a fault is what is stored, whatever was stored before. -/
theorem contents_writeScript (h : (m.writeScript path script).2 = none) :
    (m.writeScript path script).1.tree.contents (m.writeScript path script).1.working path =
      .ok script.bytes := by
  simp only [writeScript] at h ⊢
  split at h
  · cases h
  split at h
  · rename_i hwrite
    exact Host.Tree.contents_of_write hwrite
  · cases h

/-- What was written is there. -/
theorem contents_writeUnder (h : (m.writeUnder ruling path script).2 = none) :
    (m.writeUnder ruling path script).1.tree.contents
      (m.writeUnder ruling path script).1.working path = .ok script.bytes := by
  cases ruling with
  | unwritten machine fault => cases h
  | fair | unspawned fault => exact contents_writeScript h

/-- A script that could not be written fails the launch. -/
theorem launchUnder_of_unwritten (h : (m.writeUnder ruling p.scriptPath script).2 = some fault) :
    (m.launchUnder ruling p script).2 = .error (.writeScript p.scriptPath fault) := by
  cases hwritten : m.writeUnder ruling p.scriptPath script with
  | mk m' refused =>
    rw [hwritten] at h
    obtain rfl : refused = some fault := h
    simp only [launchUnder, hwritten]

/-- A launch of a written script leaves the machine as the script was written to it. -/
theorem launchUnder_of_written (h : (m.writeUnder ruling p.scriptPath script).2 = none) :
    m.launchUnder ruling p script =
      ((m.writeUnder ruling p.scriptPath script).1,
        match (m.writeUnder ruling p.scriptPath script).1.startUnder ruling p with
        | .ok _ => .ok ()
        | .error f => .error (.spawn p.interpreter f)) := by
  cases hwritten : m.writeUnder ruling p.scriptPath script with
  | mk m' refused =>
    rw [hwritten] at h
    obtain rfl : refused = none := h
    simp only [launchUnder, hwritten]
    cases m'.startUnder ruling p <;> rfl

/-- After a launch the script is stored, unless it could not be written. -/
theorem contents_launchUnder
    (h : ∀ fault, (m.launchUnder ruling p script).2 ≠ .error (.writeScript p.scriptPath fault)) :
    (m.launchUnder ruling p script).1.tree.contents (m.launchUnder ruling p script).1.working
      p.scriptPath = .ok script.bytes := by
  cases hwritten : (m.writeUnder ruling p.scriptPath script).2 with
  | some fault => exact absurd (launchUnder_of_unwritten hwritten) (h fault)
  | none =>
    rw [launchUnder_of_written hwritten]
    exact contents_writeUnder hwritten

end Machine

namespace Workbench

variable {machine : Machine} {plan : Plan} {ruling : Ruling} {script : Text} {hitch : Option Hitch}
  {x : Step} {w w' : Workbench}

/-! ## Runs under a ruling -/

/-- How a run of a script comes out under a ruling. -/
def startedUnder (ruling : Ruling) (w : Workbench) (script : Text) (hitch : Option Hitch) :
    Except Failure Unit :=
  Hitch.start (w.machine.launchUnder ruling w.plan script).2 hitch

/-- Runs a script as the system rules. -/
def runUnder (ruling : Ruling) (w : Workbench) (script : Text) (hitch : Option Hitch) :
    Workbench :=
  let w := w.killCurrent
  (w.enroll script hitch (w.machine.launchUnder ruling w.plan script)).2

/-- The bytes that are stored at the script path, if a file is there. -/
def stored? (w : Workbench) : Option Bytes :=
  (w.machine.tree.contents w.machine.working w.plan.scriptPath).toOption

/-- Whether another machine has the same file at the script path, if there is one. -/
def spares (w : Workbench) (machine : Machine) : Bool :=
  w.stored?.all fun bytes => ({ w with machine } : Workbench).stored? = some bytes

/-- A step, and how the system rules on it if it is a run. -/
structure Turn where
  step : Step
  ruling : Ruling

/-- What a turn makes of a workbench, if it is possible.  What else changes the files of the machine
leaves the script path alone. -/
def turn? (w : Workbench) (t : Turn) : Option Workbench :=
  match t.step with
  | .run script hitch => some (w.runUnder t.ruling script hitch)
  | .meddle machine => if w.spares machine then some { w with machine } else none
  | x => w.step? x

/-- What a row of turns makes of a workbench, if each of them is possible in its turn. -/
abbrev turns? (w : Workbench) (turns : List Turn) : Option Workbench :=
  Schedule.after? turn? w turns

/-- With a fair ruling a run is a run. -/
theorem runUnder_fair (w : Workbench) (script : Text) (hitch : Option Hitch) :
    w.runUnder .fair script hitch = w.run script hitch := rfl

/-- With a fair ruling a turn is a step. -/
theorem turn?_fair (h : ∀ machine, x = .meddle machine → w.spares machine = true) :
    w.turn? ⟨x, .fair⟩ = w.step? x := by
  cases x with
  | run script hitch => exact congrArg some (runUnder_fair w script hitch)
  | meddle machine => exact if_pos (h machine rfl)
  | cancel | subscribe | unsubscribe i | empty i | await i | look i | pump i | inside i y
  | permit reply => rfl

/-- A turn is a run under its ruling, or another step that leaves the script path alone. -/
theorem turn_cases {t : Turn} (h : w.turn? t = some w') :
    (∃ script hitch, t.step = .run script hitch ∧ w' = w.runUnder t.ruling script hitch) ∨
      (∀ script hitch, t.step ≠ .run script hitch) ∧ w.step? t.step = some w' ∧
        ∀ machine, t.step = .meddle machine → w.spares machine = true := by
  obtain ⟨x, ruling⟩ := t
  cases x with
  | run script hitch =>
    cases h
    exact Or.inl ⟨script, hitch, rfl, rfl⟩
  | meddle machine =>
    right
    simp only [turn?] at h
    split at h <;> cases h
    rename_i hspares
    refine ⟨by simp, rfl, ?_⟩
    rintro _ ⟨rfl⟩
    exact hspares
  | cancel | subscribe | unsubscribe i | empty i | await i | look i | pump i | inside i y
  | permit reply => exact Or.inr ⟨by simp, h, by simp⟩

/-- A run is entered as it comes out under the ruling. -/
theorem ledger_runUnder (ruling : Ruling) (w : Workbench) (script : Text) (hitch : Option Hitch) :
    (w.runUnder ruling script hitch).ledger =
      w.ledger.enter script (w.startedUnder ruling script hitch) := by
  simp [runUnder, enroll, startedUnder]

/-- A launch error is what becomes of the run. -/
theorem startedUnder_of_error {e : LaunchError}
    (h : (w.machine.launchUnder ruling w.plan script).2 = .error e) :
    w.startedUnder ruling script hitch = .error (.launch e) := by
  rw [startedUnder, h]
  rfl

/-- A run begins the next session, which is running if it was started and has failed if it was not.
-/
theorem session_runUnder (ruling : Ruling) (w : Workbench) (script : Text) (hitch : Option Hitch) :
    (w.runUnder ruling script hitch).ledger.session = some ⟨w.ledger.issued + 1, script,
      match w.startedUnder ruling script hitch with
      | .ok _ => .running
      | .error cause => .failed cause, []⟩ := by
  rw [ledger_runUnder]
  exact Ledger.session_enter w.ledger script _

/-- A run leaves the machine as its launch leaves it. -/
theorem machine_runUnder (ruling : Ruling) (w : Workbench) (script : Text)
    (hitch : Option Hitch) :
    (w.runUnder ruling script hitch).machine =
      (w.machine.launchUnder ruling w.plan script).1 := by
  simp [runUnder, enroll]

/-- A run does not change the plan. -/
theorem plan_runUnder (ruling : Ruling) (w : Workbench) (script : Text) (hitch : Option Hitch) :
    (w.runUnder ruling script hitch).plan = w.plan := by
  simp [runUnder, enroll]

/-- After a run was begun its number has the new run, and every other number the run it had, struck
by the kill. -/
theorem run?_runUnder (ruling : Ruling) (w : Workbench) (script : Text) (hitch : Option Hitch)
    (id : SessionId) :
    (w.runUnder ruling script hitch).run? id =
      (w.killCurrent.run? id).or
        (if id = w.ledger.issued + 1 then w.newcomer (w.startedUnder ruling script hitch)
        else none) := by
  apply run?_of_runs_append
  obtain ⟨hledger, hmachine, hplan, hsignals⟩ := w.killCurrent_frame
  simp only [runUnder, runs_enroll, startedUnder, newcomer, hledger, hmachine, hplan, hsignals]

/-! ## Between two runs -/

/-- Only a run and what else changes files touch the machine, and nothing changes the plan. -/
theorem machine_step (hx : w.step? x = some w') (hrun : ∀ script hitch, x ≠ .run script hitch) :
    w'.plan = w.plan ∧ (w'.machine = w.machine ∨ x = .meddle w'.machine) := by
  cases x with
  | run script hitch => exact absurd rfl (hrun script hitch)
  | meddle machine =>
    cases hx
    exact ⟨rfl, Or.inr rfl⟩
  | cancel =>
    cases hx
    obtain ⟨-, hmachine, hplan, -⟩ := w.killCurrent_frame
    exact ⟨hplan, Or.inl hmachine⟩
  | pump id =>
    obtain ⟨r, e, es, -, -, rfl⟩ := pump_cases hx
    exact ⟨rfl, Or.inl rfl⟩
  | inside id y =>
    obtain ⟨r, r', -, -, rfl⟩ := inside_cases hx
    exact ⟨rfl, Or.inl rfl⟩
  | look i =>
    simp only [step?] at hx
    split at hx
    · cases hx
    · split at hx <;> cases hx
      exact ⟨rfl, Or.inl rfl⟩
  | subscribe | unsubscribe i | empty i | await i | permit reply =>
    cases hx
    exact ⟨rfl, Or.inl rfl⟩

/-- The stored bytes are those that stand at the script path. -/
theorem stored?_eq_some_iff {bytes : Bytes} :
    w.stored? = some bytes ↔
      w.machine.tree.contents w.machine.working w.plan.scriptPath = .ok bytes := by
  unfold stored?
  cases w.machine.tree.contents w.machine.working w.plan.scriptPath <;> simp [Except.toOption]

/-- What is stored stays stored until the next run. -/
theorem stored?_step (hx : w.step? x = some w') (hrun : ∀ script hitch, x ≠ .run script hitch)
    (hspares : ∀ machine, x = .meddle machine → w.spares machine = true) {bytes : Bytes}
    (h : w.stored? = some bytes) : w'.stored? = some bytes := by
  obtain ⟨hplan, hsame | hmeddle⟩ := machine_step hx hrun
  · rwa [stored?, hplan, hsame]
  · have hkept := hspares w'.machine hmeddle
    rw [spares, h, Option.all_some, decide_eq_true_eq] at hkept
    rwa [stored?, hplan]

/-- A step that begins no run starts none. -/
theorem isSome_run?_of_not_run (hx : w.step? x = some w')
    (hrun : ∀ script hitch, x ≠ .run script hitch) (id : SessionId) :
    (w'.run? id).isSome = (w.run? id).isSome := by
  have hnone : w.spawned x = [] := by
    cases x with
    | run script hitch => exact absurd rfl (hrun script hitch)
    | cancel | subscribe | unsubscribe i | empty i | await i | look i | pump i | inside i y
    | meddle machine | permit reply => rfl
  have hiff := isSome_run?_step hx id
  rw [hnone, List.mem_nil_iff, or_false] at hiff
  exact Bool.eq_iff_iff.2 hiff

/-- The session after a step that begins no run is that from before, gone on. -/
theorem session_of_not_run (hl : w.ledger.IsOrderly) (hx : w.step? x = some w')
    (hrun : ∀ script hitch, x ≠ .run script hitch) {t : Session} (ht : w'.ledger.session = some t) :
    ∃ s, w.ledger.session = some s ∧ s.Precedes t := by
  cases hs : w.ledger.session with
  | none =>
    -- no run has begun yet, and none begins now
    have hl' := hl.after (ledger_step w x w' hx)
    have hissued : w'.ledger.issued = 0 := (issued_of_not_run hx hrun).trans (hl.idle.1 hs)
    rw [hl'.idle.2 hissued] at ht
    cases ht
  | some s =>
    have hone : w.steps? [x] = some w' := by simp [Schedule.after?, hx]
    have hnone : ∀ script hitch, .run script hitch ∉ [x] := by
      intro script hitch hmem
      exact hrun script hitch (List.mem_singleton.1 hmem).symm
    obtain ⟨t', ht', hst⟩ := precedes_steps hnone hone hs
    rw [ht, Option.some.injEq] at ht'
    exact ⟨s, rfl, ht' ▸ hst⟩

/-! ## What every turn keeps -/

/-- What is true of a workbench however the system rules. -/
structure Kept (plan : Plan) (w : Workbench) : Prop where
  plan : w.plan = plan
  aims : w.ledger.AimsAtCurrent
  orderly : w.ledger.IsOrderly
  fresh : ∀ id, w.ledger.issued < id → w.run? id = none
  running : ∀ id, w.ledger.isPending id = true → (w.run? id).isSome = true
  unstarted : ∀ s e, w.ledger.session = some s → s.state = .failed (.launch e) →
    w.run? s.id = none
  script : ∀ s, w.ledger.session = some s →
    (∀ path fault, s.state ≠ .failed (.launch (.writeScript path fault))) →
    w.stored? = some s.script.bytes

/-- A workbench before its first run keeps the invariant. -/
theorem kept_new (machine : Machine) (plan : Plan) : Kept plan (new machine plan) :=
  ⟨rfl, Ledger.aimsAtCurrent_empty, Ledger.isOrderly_empty, fun _ _ => rfl,
    by simp [new, Ledger.isPending, Ledger.running?], by simp [new], by simp [new]⟩

/-- A step that begins no run keeps the invariant. -/
theorem Kept.step (hw : Kept plan w) (hx : w.step? x = some w')
    (hrun : ∀ script hitch, x ≠ .run script hitch)
    (hspares : ∀ machine, x = .meddle machine → w.spares machine = true) : Kept plan w' := by
  have hmoves := ledger_step w x w' hx
  have hsome := isSome_run?_of_not_run hx hrun
  have hnone : ∀ id, w.run? id = none → w'.run? id = none := by
    intro id hid
    rw [← Option.not_isSome_iff_eq_none, hsome, hid]
    exact Bool.false_ne_true
  refine ⟨?_, hw.aims.after hmoves, hw.orderly.after hmoves, ?_, ?_, ?_, ?_⟩
  · rw [(machine_step hx hrun).1, hw.plan]
  · intro id hid
    rw [issued_of_not_run hx hrun] at hid
    exact hnone id (hw.fresh id hid)
  · intro id hpending
    obtain ⟨t, ht, rfl, hrunning⟩ := Ledger.isPending_iff.1 hpending
    obtain ⟨s, hs, hst⟩ := session_of_not_run hw.orderly hx hrun ht
    have hbefore : s.state = .running := by
      rcases hst.state with hsame | ⟨hold, -⟩
      · exact hsame.symm.trans hrunning
      · exact hold
    rw [hsome]
    exact hw.running t.id (Ledger.isPending_iff.2 ⟨s, hs, hst.id.symm, hbefore⟩)
  · intro t e ht hfailed
    obtain ⟨s, hs, hst⟩ := session_of_not_run hw.orderly hx hrun ht
    have hbefore : s.state = .failed (.launch e) := by
      rcases hst.state with hsame | ⟨-, code, hcode⟩
      · exact hsame.symm.trans hfailed
      · rw [hcode] at hfailed
        cases hfailed
    rw [hst.id]
    exact hnone s.id (hw.unstarted s e hs hbefore)
  · intro t ht hwritten
    obtain ⟨s, hs, hst⟩ := session_of_not_run hw.orderly hx hrun ht
    rw [hst.script]
    apply stored?_step hx hrun hspares
    apply hw.script s hs
    intro path fault hfailed
    -- a session that has failed is the same session after the step
    rw [hst.ended (by simp [hfailed])] at hwritten
    exact hwritten path fault hfailed

/-- A run stores its script, unless that could not be written. -/
theorem stored?_runUnder
    (h : ∀ path fault, w.startedUnder ruling script hitch ≠
      .error (.launch (.writeScript path fault))) :
    (w.runUnder ruling script hitch).stored? = some script.bytes := by
  rw [stored?_eq_some_iff, machine_runUnder, plan_runUnder]
  apply Machine.contents_launchUnder
  intro fault hfailed
  exact h w.plan.scriptPath fault (startedUnder_of_error hfailed)

/-- A run keeps the invariant, whatever the ruling. -/
theorem Kept.run (hw : Kept plan w) (ruling : Ruling) (script : Text) (hitch : Option Hitch) :
    Kept plan (w.runUnder ruling script hitch) := by
  have hledger := ledger_runUnder ruling w script hitch
  have hissued : (w.runUnder ruling script hitch).ledger.issued = w.ledger.issued + 1 := by
    rw [hledger, Ledger.issued_enter]
  have hnew : w.killCurrent.run? (w.ledger.issued + 1) = none :=
    (isNone_killCurrent w _).2 (hw.fresh _ (Nat.lt_succ_self _))
  refine ⟨?_, ?_, ?_, ?_, ?_, ?_, ?_⟩
  · rw [plan_runUnder, hw.plan]
  · rw [hledger]
    exact hw.aims.move (.enter script _)
  · rw [hledger]
    exact hw.orderly.move (.enter script _)
  · intro id hid
    rw [hissued] at hid
    have hlater : w.killCurrent.run? id = none :=
      (isNone_killCurrent w id).2 (hw.fresh id (Nat.lt_of_succ_lt hid))
    rw [run?_runUnder, hlater, if_neg (Nat.ne_of_gt hid), Option.or_none]
  · intro id hpending
    rw [hledger, Ledger.isPending_enter] at hpending
    obtain ⟨rfl, hstarted⟩ := hpending
    rw [run?_runUnder, hnew, Option.none_or, if_pos rfl, hstarted]
    rfl
  · intro s e hs hfailed
    rw [session_runUnder, Option.some.injEq] at hs
    subst hs
    rw [run?_runUnder, hnew, Option.none_or, if_pos rfl]
    cases hstarted : w.startedUnder ruling script hitch with
    | ok _ =>
      rw [hstarted] at hfailed
      cases hfailed
    | error cause =>
      rw [hstarted] at hfailed
      cases hfailed
      rfl
  · intro s hs hwritten
    rw [session_runUnder, Option.some.injEq] at hs
    subst hs
    apply stored?_runUnder
    intro path fault hstarted
    apply hwritten path fault
    rw [hstarted]

/-- A turn keeps the invariant. -/
theorem Kept.turn {t : Turn} (hw : Kept plan w) (h : w.turn? t = some w') : Kept plan w' := by
  rcases turn_cases h with ⟨script, hitch, -, rfl⟩ | ⟨hrun, hx, hspares⟩
  · exact hw.run t.ruling script hitch
  · exact hw.step hx hrun hspares

variable {turns : List Turn}

/-- The invariant holds after every row of turns. -/
theorem kept (h : (new machine plan).turns? turns = some w) : Kept plan w :=
  Schedule.invariant (fun _ _ _ hw hx => hw.turn hx) (kept_new machine plan) h

/-! ## What a run does to the others -/

/-- A new run is one in which nothing has happened, or one that was given up and killed. -/
theorem exists_moves_newcomer (w : Workbench) (started : Except Failure Unit) :
    ∃ moves, ({} : Run).steps? moves = some ((w.newcomer started).getD {}) ∧
      .pollFail ∉ moves := by
  cases started with
  | ok _ => exact ⟨[], rfl, List.not_mem_nil⟩
  | error cause =>
    cases cause with
    | launch e => exact ⟨[], rfl, List.not_mem_nil⟩
    | pump fault => exact ⟨[.hangUp, .kill w.signals], rfl, by simp⟩

/-- Nothing that a run does to any run is a failure to look for its exit status. -/
theorem exists_moves_runUnder (ruling : Ruling) (w : Workbench) (script : Text)
    (hitch : Option Hitch) (id : SessionId) :
    ∃ moves, (w.view id).steps? moves = some ((w.runUnder ruling script hitch).view id) ∧
      .pollFail ∉ moves := by
  have hstrikes : .pollFail ∉ w.strikes id := by
    unfold strikes
    split <;> simp
  have hkilled := w.view_strikes id
  obtain ⟨moves, hmoves, hnone⟩ :=
    exists_moves_newcomer w (w.startedUnder ruling script hitch)
  unfold view at hkilled ⊢
  rw [run?_runUnder]
  cases hr : w.killCurrent.run? id with
  | some r =>
    -- the run was there before, so at most it is killed
    rw [hr] at hkilled
    exact ⟨w.strikes id, hkilled, hstrikes⟩
  | none =>
    rw [hr, Option.getD_none] at hkilled
    rw [Option.none_or]
    by_cases hid : id = w.ledger.issued + 1
    · rw [if_pos hid]
      refine ⟨w.strikes id ++ moves, Schedule.after?_trans hkilled hmoves, ?_⟩
      rw [List.mem_append, not_or]
      exact ⟨hstrikes, hnone⟩
    · rw [if_neg hid]
      exact ⟨w.strikes id, hkilled, hstrikes⟩

/-- Whatever the rulings, each run goes by steps of its own. -/
theorem exists_runMoves (h : (new machine plan).turns? turns = some w) (id : SessionId) :
    ∃ before, ({} : Run).steps? before = some (w.view id) ∧
      (.pollFail ∈ before → .inside id .pollFail ∈ turns.map (·.step)) := by
  refine Schedule.concat_induction
    (P := fun turns w => ∃ before, ({} : Run).steps? before = some (w.view id) ∧
      (.pollFail ∈ before → .inside id .pollFail ∈ turns.map (·.step))) ?_ ?_ h
  · exact ⟨[], rfl, fun hmem => absurd hmem List.not_mem_nil⟩
  · rintro turns w t w' - ⟨before, hbefore, hfailed⟩ ht
    rw [List.map_append, List.map_singleton]
    rcases turn_cases ht with ⟨script, hitch, -, rfl⟩ | ⟨-, hx, -⟩
    · obtain ⟨moves, hmoves, hnone⟩ := exists_moves_runUnder t.ruling w script hitch id
      refine ⟨before ++ moves, Schedule.after?_trans hbefore hmoves, ?_⟩
      intro hmem
      exact List.mem_append_left _ (hfailed ((List.mem_append.1 hmem).resolve_right hnone))
    · refine ⟨before ++ w.runMoves id t.step,
        Schedule.after?_trans hbefore (run_step id w t.step w' hx), ?_⟩
      intro hmem
      rcases List.mem_append.1 hmem with hmem | hmem
      · exact List.mem_append_left _ (hfailed hmem)
      · rw [eq_inside_of_pollFail_mem hmem]
        exact List.mem_append_right _ List.mem_cons_self

/-- A run kills the one in progress, whatever becomes of its own script. -/
theorem run?_runUnder_of_running (h : (new machine plan).turns? turns = some w) {s : Session}
    (hs : w.ledger.session = some s) (hrunning : s.state = .running) (ruling : Ruling)
    (script : Text) (hitch : Option Hitch) :
    ∃ r, w.run? s.id = some r ∧
      (w.runUnder ruling script hitch).run? s.id = some (r.kill w.signals) ∧
      (w.signals = .delivered →
        (∀ t, (r.kill w.signals).isOpen t = false ∨
          ((r.kill w.signals).feed t).isDone = true) ∧
        ((r.kill w.signals).status.isSome = true ∨
          .inside s.id .pollFail ∈ turns.map (·.step))) := by
  have hw := kept h
  have hpending : w.ledger.isPending s.id = true := Ledger.isPending_iff.2 ⟨s, hs, rfl, hrunning⟩
  obtain ⟨r, hr⟩ := Option.isSome_iff_exists.1 (hw.running s.id hpending)
  obtain ⟨before, hbefore, hfailed⟩ := exists_runMoves h s.id
  rw [view, hr, Option.getD_some] at hbefore
  have hkilled : w.killCurrent.run? s.id = some (r.kill w.signals) := by
    rw [run?_killCurrent_of_aims hw.aims, struck, if_pos hpending, hr]
    rfl
  refine ⟨r, hr, ?_, ?_⟩
  · rw [run?_runUnder, hkilled, Option.some_or]
  · intro hsignals
    rw [hsignals]
    have hdoomed : (r.kill .delivered).Doomed fun _ => True :=
      Run.doomed_kill hbefore trivial fun _ => trivial
    exact ⟨hdoomed.closed, (Run.isSome_status_kill hbefore).imp_right hfailed⟩

/-- A run that is not launched leaves no run. -/
theorem run?_runUnder_of_error (hw : w.ledger.AimsAtCurrent) {e : LaunchError}
    (h : w.startedUnder ruling script hitch = .error (.launch e)) (id : SessionId) :
    (w.runUnder ruling script hitch).run? id = w.struck id := by
  rw [run?_runUnder, h, newcomer, ite_self, Option.or_none, run?_killCurrent_of_aims hw]

/-! ## The script path and its runs -/

/-- However the system rules, and in whatever order things happen, the script path holds exactly the
script of the current session, whatever was stored there before; only a session whose script could
not be written is an exception.  A session that could not be started has no output and no run.

Every run is possible.  If its script or a directory above it cannot be written, its session has
failed for that reason, and if the interpreter cannot be started, for this one; in both cases there
is no other run than before.  Otherwise, if nothing else is denied, its session is running.  However
a run comes out, it has killed the one in progress, and the exit code that is kept stays as it was.
If the signal reaches the processes of the killed run, no reader waits for one of them, and its
interpreter has ended, unless looking for the exit status has failed. -/
theorem script_stored (h : (new machine plan).turns? turns = some w) :
    (∀ x, (∀ machine, x = .meddle machine → w.spares machine = true) →
      w.turn? ⟨x, .fair⟩ = w.step? x) ∧
    (∀ s, w.ledger.session = some s →
      (∀ path fault, s.state ≠ .failed (.launch (.writeScript path fault))) →
      w.machine.tree.contents w.machine.working plan.scriptPath = .ok s.script.bytes) ∧
    (∀ s e, w.ledger.session = some s → s.state = .failed (.launch e) →
      s.output = [] ∧ w.run? s.id = none) ∧
    ∀ ruling script hitch,
      let id := w.ledger.issued + 1
      let written := w.machine.writeUnder ruling plan.scriptPath script
      ∃ w', w.turn? ⟨.run script hitch, ruling⟩ = some w' ∧
        (∀ fault, written.2 = some fault → w'.ledger.session =
          some ⟨id, script, .failed (.launch (.writeScript plan.scriptPath fault)), []⟩) ∧
        (∀ fault, written.2 = none → written.1.startUnder ruling plan = .error fault →
          w'.ledger.session =
            some ⟨id, script, .failed (.launch (.spawn plan.interpreter fault)), []⟩) ∧
        (written.2 = none → written.1.startUnder ruling plan = .ok () → hitch = none →
          w'.ledger.session = some ⟨id, script, .running, []⟩) ∧
        (∀ e, w'.ledger.session = some ⟨id, script, .failed (.launch e), []⟩ →
          ∀ i, w'.run? i = w.struck i) ∧
        (∀ s, w.ledger.session = some s → s.state = .running →
          ∃ r, w.run? s.id = some r ∧ w'.run? s.id = some (r.kill w.signals) ∧
            (w.signals = .delivered →
              (∀ t, (r.kill w.signals).isOpen t = false ∨
                ((r.kill w.signals).feed t).isDone = true) ∧
              ((r.kill w.signals).status.isSome = true ∨
                .inside s.id .pollFail ∈ turns.map (·.step)))) ∧
        w'.ledger.lastExit = w.ledger.lastExit := by
  have hw := kept h
  obtain rfl := hw.plan
  refine ⟨fun x => turn?_fair, ?_, ?_, ?_⟩
  · intro s hs hwritten
    exact stored?_eq_some_iff.1 (hw.script s hs hwritten)
  · intro s e hs hfailed
    exact ⟨hw.orderly.failed s _ hs hfailed, hw.unstarted s e hs hfailed⟩
  · intro ruling script hitch id written
    refine ⟨w.runUnder ruling script hitch, rfl, ?_, ?_, ?_, ?_, ?_, ?_⟩
    · intro fault hfault
      rw [session_runUnder, startedUnder_of_error (Machine.launchUnder_of_unwritten hfault)]
    · intro fault hnone hfault
      have hspawn : (w.machine.launchUnder ruling w.plan script).2 =
          .error (.spawn w.plan.interpreter fault) := by
        rw [Machine.launchUnder_of_written hnone, hfault]
      rw [session_runUnder, startedUnder_of_error hspawn]
    · rintro hnone hstart rfl
      have hstarted : w.startedUnder ruling script none = .ok () := by
        rw [startedUnder, Machine.launchUnder_of_written hnone, hstart]
        rfl
      rw [session_runUnder, hstarted]
    · intro e hs
      apply run?_runUnder_of_error hw.aims (e := e)
      rw [session_runUnder] at hs
      cases hstarted : w.startedUnder ruling script hitch with
      | ok _ => simp [hstarted] at hs
      | error cause =>
        obtain ⟨-, rfl⟩ : _ ∧ cause = .launch e := by simpa [hstarted] using hs
        rfl
    · intro s hs hrunning
      exact run?_runUnder_of_running h hs hrunning ruling script hitch
    · rw [ledger_runUnder]
      exact Ledger.lastExit_move (m := .enter script _) (by simp)

/-- The second run cannot write its script, and the file is left empty; the third run can. -/
def refusals : List Turn :=
  [⟨.run ['a', 'b'] none, .fair⟩, ⟨.cancel, .fair⟩,
    ⟨.run ['b'] none, .unwritten ⟨[(['k'], .file [] true), (['s'], .file [] false)], [], ['/'], []⟩
      .noMemory⟩,
    ⟨.run ['c'] none, .fair⟩]

/-- A write and a start are refused among runs that are started, and each run stores its own script
and kills the one before. -/
theorem script_stored_refusals :
    ∃ w w', desk.turns? refusals = some w ∧
      w.machine.tree.contents w.machine.working ['s'] = .ok (Text.bytes ['c']) ∧
      w.turn? ⟨.run ['d'] none, .unspawned .tryAgain⟩ = some w' ∧
      w'.ledger.session =
        some ⟨4, ['d'], .failed (.launch (.spawn ['/', 'k'] .tryAgain)), []⟩ ∧
      w'.run? 3 = some (({} : Run).kill .delivered) ∧ w'.run? 4 = none ∧
      w'.machine.tree.contents w'.machine.working ['s'] = .ok (Text.bytes ['d']) := by
  have hend : (desk.turns? refusals).isSome = true := by decide +kernel
  obtain ⟨w, hw⟩ := Option.isSome_iff_exists.1 hend
  have hsession : w.ledger.session = some ⟨3, ['c'], .running, []⟩ :=
    Schedule.eq_of_map_after? (f := fun w : Workbench => w.ledger.session) hw (by decide +kernel)
  have hissued : w.ledger.issued = 3 :=
    Schedule.eq_of_map_after? (f := fun w : Workbench => w.ledger.issued) hw (by decide +kernel)
  have hrun : w.run? 3 = some {} :=
    Schedule.eq_of_map_after? (f := fun w : Workbench => w.run? 3) hw (by decide +kernel)
  have hsignals : w.signals = .delivered :=
    Schedule.eq_of_map_after? (f := fun w : Workbench => w.signals) hw (by decide +kernel)
  have hwritten : (w.machine.writeUnder (.unspawned .tryAgain) ['s'] ['d']).2 = none :=
    Schedule.eq_of_map_after?
      (f := fun w : Workbench => (w.machine.writeUnder (.unspawned .tryAgain) ['s'] ['d']).2) hw
      (by decide +kernel)
  obtain ⟨-, hscript, -, hruns⟩ := script_stored hw
  obtain ⟨w', hw', -, hspawn, -, -, hkilled, -⟩ := hruns (.unspawned .tryAgain) ['d'] none
  have hfailed := hspawn .tryAgain hwritten rfl
  rw [hissued] at hfailed
  have hlater : desk.turns? (refusals ++ [⟨.run ['d'] none, .unspawned .tryAgain⟩]) = some w' :=
    Schedule.after?_trans hw (Option.bind_eq_some_iff.2 ⟨w', hw', rfl⟩)
  obtain ⟨-, hscript', hunstarted, -⟩ := script_stored hlater
  obtain ⟨r, hr, hafter, -⟩ := hkilled _ hsession rfl
  obtain rfl : {} = r := Option.some.inj (hrun.symm.trans hr)
  rw [hsignals] at hafter
  exact ⟨w, w', hw, hscript _ hsession (by simp), hw', hfailed, hafter,
    (hunstarted _ _ hfailed rfl).2, hscript' _ hfailed (by simp)⟩

end Workbench

end ScriptWorkbench
