import ScriptWorkbench.Proofs.Session.Inside

/-!
# The current session and its own run

Runs that were superseded go on, and their pumps go on to carry events to the ledger.  None of this
comes into the current session: its output is what the pump of its own run has taken, and its end
is the exit of its own run (`Workbench.session_own`).

The invariant is `Workbench.Mirrors`.  It says what the current session has to do with the run of
its number, and that nothing has happened under the numbers that are still to be given.
-/

set_option autoImplicit false

namespace ScriptWorkbench

/-- The entry that an event adds to the output of its session: a line of standard output as it is,
and a line of standard error with the finding that it carries. -/
def Event.entry? : Event → Option Entry
  | .line .stdout text => some (.stdout text)
  | .line .stderr text => some (.stderr (ErrorLine.ofText text))
  | .exited _ => none

/-- The entry of a line is the one that the ledger is told. -/
theorem Event.entry?_line (s : Stream) (text : Text) :
    entry? (.line s text) = some (Entry.ofLine s text) := by
  cases s <;> rfl

namespace Session

/-- Whether anything can come from the run of a session. -/
def isHeard (s : Session) : Bool :=
  match s.state with
  | .failed _ => false
  | _ => true

/-- A session that says what has been taken from a run. -/
def Follows (s : Session) (own : List Event) : Prop :=
  s.output = own.filterMap Event.entry? ∧
    match s.state with
    | .running => ∀ e ∈ own, e.isLine = true
    | .completed code => ∃ lines, own = lines ++ [.exited code] ∧ ∀ e ∈ lines, e.isLine = true
    | .failed _ => own = []

/-- A running session after an event of its run. -/
def after (s : Session) (e : Event) : Session :=
  match Notice.ofEvent e with
  | .output entry => { s with output := s.output ++ [entry] }
  | .exited code => { s with state := .completed code }

/-- A running session that says what was taken still says it after the next event. -/
theorem Follows.after {s : Session} {own : List Event} (h : s.Follows own)
    (hrunning : s.state = .running) (e : Event) : (s.after e).Follows (own ++ [e]) := by
  obtain ⟨houtput, hstate⟩ := h
  rw [hrunning] at hstate
  cases e with
  | line t text =>
    refine ⟨?_, ?_⟩
    · rw [List.filterMap_append, ← houtput, List.filterMap_cons_some (Event.entry?_line t text)]
      rfl
    · have hall : ∀ e ∈ own ++ [.line t text], e.isLine = true := by
        intro e he
        rcases List.mem_append.1 he with he | he
        · exact hstate e he
        · rw [List.mem_singleton.1 he]
          rfl
      simpa [Session.after, Notice.ofEvent, hrunning] using hall
  | exited code =>
    refine ⟨?_, own, rfl, hstate⟩
    rw [List.filterMap_append, ← houtput]
    exact (List.append_nil _).symm

/-- A session that says what was taken has completed with a code exactly if the exit with this code
was taken. -/
theorem Follows.completed_iff {s : Session} {own : List Event} (h : s.Follows own)
    (code : Option ExitCode) : s.state = .completed code ↔ .exited code ∈ own := by
  have hstate := h.2
  cases hs : s.state with
  | running =>
    rw [hs] at hstate
    constructor
    · intro hcompleted
      cases hcompleted
    · intro hmem
      exact absurd hmem (Event.exited_notMem hstate code)
  | completed last =>
    rw [hs] at hstate
    obtain ⟨lines, rfl, hall⟩ := hstate
    rw [List.mem_append, List.mem_singleton, Event.exited.injEq, SessionState.completed.injEq]
    constructor
    · intro hcode
      exact Or.inr hcode.symm
    · rintro (hmem | hcode)
      · exact absurd hmem (Event.exited_notMem hall code)
      · exact hcode.symm
  | failed cause =>
    rw [hs] at hstate
    rw [show own = [] from hstate]
    simp

end Session

/-- An event of the current session, if that is running, goes to this session. -/
theorem Ledger.session_notice {l : Ledger} {s : Session} (hs : l.session = some s)
    (hrunning : s.state = .running) (e : Event) :
    (l.move (.notice s.id (.ofEvent e))).session = some (s.after e) := by
  cases e with
  | line t text =>
    rw [Ledger.move, Notice.ofEvent, Ledger.apply_output hs hrunning]
    rfl
  | exited code =>
    rw [Ledger.move, Notice.ofEvent, Ledger.apply_exited hs hrunning]
    rfl

namespace Workbench

/-- What the current session has to do with the run of its number. -/
structure Mirrors (start : Workbench) (steps : List Step) (w : Workbench) : Prop where
  /-- Nothing has happened under a number that is still to be given. -/
  ahead : ∀ id, w.ledger.issued < id → w.voice id = none ∧
    start.history (pumped id) steps = [] ∧ ∀ script, (id, script) ∉ start.history begun steps
  number : ∀ s, w.ledger.session = some s → s.id = w.ledger.issued
  script : ∀ s, w.ledger.session = some s →
    ∀ script, (s.id, script) ∈ start.history begun steps ↔ script = s.script
  heard : ∀ s, w.ledger.session = some s → (w.voice s.id = some true ↔ s.isHeard = true)
  follows : ∀ s, w.ledger.session = some s → s.Follows (start.history (pumped s.id) steps)

variable {machine : Machine} {plan : Plan} {steps : List Step} {w w' : Workbench}

/-- A run that nobody listens to, or that was not started, has nothing for its pump; neither has one
whose exit was taken. -/
theorem no_pump (h : (new machine plan).steps? steps = some w) {id : SessionId}
    (hquiet : w.voice id ≠ some true ∨
      ∃ code, .exited code ∈ (new machine plan).history (pumped id) steps) :
    w.step? (.pump id) = none := by
  have hrun : ({} : Run).steps? _ = some (w.view id) := run_steps id h
  cases hr : w.run? id with
  | none => simp [step?, pump?, hr]
  | some r =>
    have hview : w.view id = r := by simp [view, hr]
    rw [hview] at hrun
    have hnil : r.queue = [] := by
      cases hl : r.listening with
      | false => exact Run.queue_eq_nil_of_deaf hrun hl
      | true =>
        have hvoice : w.voice id = some true := by simp [voice, hr, hl]
        rcases hquiet with hdeaf | ⟨code, hexit⟩
        · exact absurd hvoice hdeaf
        · rw [history_pumped id h] at hexit
          exact (Run.queue_eq_nil_of_exited_taken hrun hl hexit).1
    simp [step?, pump?, hr, hnil]

/-- The run of a session that can be heard has a listener. -/
theorem Mirrors.listening (h : (new machine plan).Mirrors steps w) {s : Session}
    (hs : w.ledger.session = some s) (hheard : s.isHeard = true) :
    (w.view s.id).listening = true := by
  obtain ⟨r, hr, hl⟩ := Option.map_eq_some_iff.1 ((h.heard s hs).2 hheard)
  simpa [view, hr] using hl

/-- The pump of a session that is over has nothing to take. -/
theorem Mirrors.no_pump (h : (new machine plan).Mirrors steps w)
    (hw : (new machine plan).steps? steps = some w) {s : Session} (hs : w.ledger.session = some s)
    (hover : s.state ≠ .running) : w.step? (.pump s.id) = none := by
  apply Workbench.no_pump hw
  cases hstate : s.state with
  | running => exact absurd hstate hover
  | completed code =>
    right
    have hfollows := (h.follows s hs).2
    rw [hstate] at hfollows
    obtain ⟨lines, hown, -⟩ := hfollows
    refine ⟨code, ?_⟩
    rw [hown]
    exact List.mem_append_right _ List.mem_cons_self
  | failed cause =>
    left
    rw [Ne, h.heard s hs]
    simp [Session.isHeard, hstate]

/-- A new run takes the next number and begins with nothing. -/
theorem Mirrors.run (h : (new machine plan).Mirrors steps w)
    (hw : (new machine plan).steps? steps = some w) {script : Text} {hitch : Option Hitch}
    (hx : w.step? (.run script hitch) = some w') :
    (new machine plan).Mirrors (steps ++ [.run script hitch]) w' := by
  have hledger : w'.ledger = w.ledger.enter script (w.started script hitch) := by
    rw [← Option.some.inj hx, ledger_run]
  have hissued : w'.ledger.issued = w.ledger.issued + 1 := by
    rw [hledger, Ledger.issued_enter]
  have hpumped : ∀ id, (new machine plan).history (pumped id) (steps ++ [.run script hitch]) =
      (new machine plan).history (pumped id) steps := by
    intro id
    rw [history, Schedule.along_concat hw hx]
    exact List.append_nil _
  have hbegun : (new machine plan).history begun (steps ++ [.run script hitch]) =
      (new machine plan).history begun steps ++ [(w.ledger.issued + 1, script)] := by
    rw [history, Schedule.along_concat hw hx, begun_run]
  obtain ⟨hvoice, htaken, hunused⟩ := h.ahead (w.ledger.issued + 1) (Nat.lt_succ_self _)
  refine ⟨?_, ?_, ?_, ?_, ?_⟩
  · intro id hid
    rw [hissued] at hid
    obtain ⟨hvoice', htaken', hunused'⟩ := h.ahead id (Nat.lt_of_succ_lt hid)
    have hne : id ≠ w.ledger.issued + 1 := Nat.ne_of_gt hid
    refine ⟨?_, by rw [hpumped, htaken'], ?_⟩
    · rw [voice_step hx, hvoice']
      simp [hne]
    · intro script' hmem
      rw [hbegun, List.mem_append, List.mem_singleton, Prod.mk.injEq] at hmem
      rcases hmem with hmem | ⟨hid', -⟩
      · exact hunused' script' hmem
      · exact hne hid'
  all_goals
    intro s hs
    rw [hledger, Ledger.session_enter, Option.some.injEq] at hs
    subst hs
  · exact hissued.symm
  · intro script'
    rw [hbegun, List.mem_append, List.mem_singleton, Prod.mk.injEq]
    constructor
    · rintro (hmem | ⟨-, hscript⟩)
      · exact absurd hmem (hunused script')
      · exact hscript
    · rintro rfl
      exact Or.inr ⟨rfl, rfl⟩
  · rw [voice_step hx, hvoice, Option.none_or]
    simp only [if_true]
    cases hstarted : w.started script hitch with
    | ok _ => simp [newcomer, Session.isHeard]
    | error cause =>
      cases cause with
      | launch _ => simp [newcomer, Session.isHeard]
      | pump _ => simp [newcomer, Session.isHeard, Run.abandoned_listening]
  · refine ⟨?_, ?_⟩ <;> rw [hpumped, htaken]
    · rfl
    · cases hstarted : w.started script hitch <;> simp

/-- A step that begins no run keeps the invariant, if the session still says what was taken. -/
theorem Mirrors.keep (h : (new machine plan).Mirrors steps w) {steps' : List Step}
    (hissued : w'.ledger.issued = w.ledger.issued) (hvoice : ∀ id, w'.voice id = w.voice id)
    (hbegun : (new machine plan).history begun steps' = (new machine plan).history begun steps)
    (hahead : ∀ id, w.ledger.issued < id → (new machine plan).history (pumped id) steps' =
      (new machine plan).history (pumped id) steps)
    (hsession : ∀ t, w'.ledger.session = some t → ∃ s, w.ledger.session = some s ∧ t.id = s.id ∧
      t.script = s.script ∧ t.isHeard = s.isHeard ∧
        t.Follows ((new machine plan).history (pumped s.id) steps')) :
    (new machine plan).Mirrors steps' w' := by
  refine ⟨?_, ?_, ?_, ?_, ?_⟩
  · intro id hid
    rw [hissued] at hid
    rw [hvoice, hbegun, hahead id hid]
    exact h.ahead id hid
  all_goals
    intro t ht
    obtain ⟨s, hs, hid, hscript, hheard, hfollows⟩ := hsession t ht
    rw [hid]
  · rw [hissued]
    exact h.number s hs
  · rw [hbegun, hscript]
    exact h.script s hs
  · rw [hvoice, hheard]
    exact h.heard s hs
  · exact hfollows

/-- No pump runs under a number that is still to be given. -/
theorem Mirrors.ne_of_issued_lt (h : (new machine plan).Mirrors steps w) {id : SessionId}
    (hx : w.step? (.pump id) = some w') {i : SessionId} (hi : w.ledger.issued < i) : id ≠ i := by
  rintro rfl
  obtain ⟨r, e, es, hr, -⟩ := pump_cases hx
  have hnone := (h.ahead id hi).1
  simp [voice, hr] at hnone

/-- The pump of a run brings the current session what it takes, if the run is that of the session,
and else nothing. -/
theorem Mirrors.pump (h : (new machine plan).Mirrors steps w)
    (hw : (new machine plan).steps? steps = some w) {id : SessionId}
    (hx : w.step? (.pump id) = some w') :
    (new machine plan).Mirrors (steps ++ [.pump id]) w' := by
  have hvoice : ∀ i, w'.voice i = w.voice i := by
    intro i
    rw [voice_step hx, Option.or_none]
  have hbegun : (new machine plan).history begun (steps ++ [.pump id]) =
      (new machine plan).history begun steps := by
    rw [history, Schedule.along_concat hw hx]
    exact List.append_nil _
  have hother : ∀ i, id ≠ i → (new machine plan).history (pumped i) (steps ++ [.pump id]) =
      (new machine plan).history (pumped i) steps := by
    intro i hi
    rw [history, Schedule.along_concat hw hx]
    simp [pumped, hi]
  have hahead := fun i (hi : w.ledger.issued < i) => hother i (h.ne_of_issued_lt hx hi)
  obtain ⟨r, e, es, hr, hqueue, hw'⟩ := pump_cases hx
  have hledger : w'.ledger = w.ledger.move (.notice id (.ofEvent e)) := by
    rw [hw']
    rfl
  cases hpending : w.ledger.isPending id with
  | false =>
    have hsame : w'.ledger = w.ledger := by
      rw [hledger]
      exact Ledger.apply_of_not_isPending hpending _
    refine h.keep (congrArg Ledger.issued hsame) hvoice hbegun hahead ?_
    intro s hs
    rw [hsame] at hs
    have hne : id ≠ s.id := by
      rintro rfl
      -- the session is over, so its pump would have nothing to take
      have hover : s.state ≠ .running := by
        intro hrunning
        have := Ledger.isPending_iff.2 ⟨s, hs, rfl, hrunning⟩
        rw [hpending] at this
        cases this
      rw [h.no_pump hw hs hover] at hx
      cases hx
    refine ⟨s, hs, rfl, rfl, rfl, ?_⟩
    rw [hother s.id hne]
    exact h.follows s hs
  | true =>
    obtain ⟨s, hs, rfl, hrunning⟩ := Ledger.isPending_iff.1 hpending
    have hissued : w'.ledger.issued = w.ledger.issued := by
      rw [hledger]
      exact Ledger.issued_move w.ledger (.notice s.id _)
    have hown : (new machine plan).history (pumped s.id) (steps ++ [.pump s.id]) =
        (new machine plan).history (pumped s.id) steps ++ [e] := by
      rw [history, Schedule.along_concat hw hx]
      simp [pumped, hr, hqueue]
    have hsame : (s.after e).id = s.id ∧ (s.after e).script = s.script ∧
        (s.after e).isHeard = s.isHeard := by
      cases e <;> simp [Session.after, Notice.ofEvent, Session.isHeard, hrunning]
    refine h.keep hissued hvoice hbegun hahead ?_
    intro t ht
    rw [hledger, Ledger.session_notice hs hrunning e, Option.some.injEq] at ht
    subst ht
    refine ⟨s, hs, hsame.1, hsame.2.1, hsame.2.2, ?_⟩
    rw [hown]
    exact (h.follows s hs).after hrunning e

/-- Nothing else concerns the current session. -/
theorem Mirrors.other (h : (new machine plan).Mirrors steps w)
    (hw : (new machine plan).steps? steps = some w) {x : Step}
    (hx : w.step? x = some w') (hrun : ∀ script hitch, x ≠ .run script hitch)
    (hpump : ∀ id, x ≠ .pump id) :
    (new machine plan).Mirrors (steps ++ [x]) w' := by
  have hpumped : ∀ id, (new machine plan).history (pumped id) (steps ++ [x]) =
      (new machine plan).history (pumped id) steps := by
    intro id
    rw [history, Schedule.along_concat hw hx]
    cases x <;> simp [pumped] at hpump ⊢
  have hledger : w'.ledger.session = w.ledger.session ∧ w'.ledger.issued = w.ledger.issued := by
    have hmoves := ledger_step w x w' hx
    cases x with
    | run script hitch => exact absurd rfl (hrun script hitch)
    | pump id => exact absurd rfl (hpump id)
    | subscribe | unsubscribe i | empty i | cancel | look i | await i | inside i y | meddle machine
    | permit reply =>
      simp only [moves, Schedule.after?, Ledger.step?, Option.bind_some, Option.some.injEq]
        at hmoves
      rw [← hmoves]
      exact ⟨rfl, rfl⟩
  refine h.keep hledger.2 ?_ ?_ (fun id _ => hpumped id) ?_
  · intro id
    rw [voice_step hx]
    cases x <;> simp at hrun ⊢
  · rw [history, Schedule.along_concat hw hx]
    cases x <;> simp [begun] at hrun ⊢
  · intro s hs
    rw [hledger.1] at hs
    refine ⟨s, hs, rfl, rfl, rfl, ?_⟩
    rw [hpumped]
    exact h.follows s hs

/-- The current session mirrors its own run, whatever the schedule. -/
theorem mirrors (h : (new machine plan).steps? steps = some w) :
    (new machine plan).Mirrors steps w := by
  refine Schedule.concat_induction (P := (new machine plan).Mirrors) ?_ ?_ h
  · refine ⟨fun _ _ => ⟨rfl, rfl, fun _ => List.not_mem_nil⟩, ?_, ?_, ?_, ?_⟩ <;>
      · intro s hs
        cases hs
  · intro steps w x w' hw hmirrors hx
    cases x with
    | run script hitch => exact hmirrors.run hw hx
    | pump id => exact hmirrors.pump hw hx
    | cancel | look i | subscribe | unsubscribe i | empty i | await i | inside i y | meddle machine
    | permit reply => exact hmirrors.other hw hx (by simp) (by simp)

/-- As long as somebody listens to a run, its pump loses nothing. -/
theorem pumped_append_queue (h : (new machine plan).steps? steps = some w) {id : SessionId}
    (hl : (w.view id).listening = true) :
    (new machine plan).history (pumped id) steps ++ (w.view id).queue =
      (new machine plan).history (said id) steps := by
  have hrun : ({} : Run).steps? _ = some (w.view id) := run_steps id h
  rw [history_pumped id h, history_said id h]
  exact Run.taken_append_queue hrun hl

/-- Once the exit of a run has been taken, everything that the run says has been taken. -/
theorem said_of_exited (h : (new machine plan).steps? steps = some w) {id : SessionId}
    (hl : (w.view id).listening = true) {code : Option ExitCode}
    (hexit : .exited code ∈ (new machine plan).history (pumped id) steps) :
    (new machine plan).history (said id) steps = (new machine plan).history (pumped id) steps ∧
      ∀ more w', w.steps? more = some w' → w.history (said id) more = [] := by
  have hrun : ({} : Run).steps? _ = some (w.view id) := run_steps id h
  rw [history_pumped id h] at hexit
  obtain ⟨hnil, hover⟩ := Run.queue_eq_nil_of_exited_taken hrun hl hexit
  have hdone : ∀ s, ((w.view id).feed s).isDone = true := by
    apply (Run.orderly hrun).joined
    rw [Run.isOver_iff.1 hover]
    simp
  refine ⟨?_, ?_⟩
  · rw [← pumped_append_queue h hl, hnil, List.append_nil]
  · intro more w' hmore
    rw [history_said id hmore]
    exact Run.quiet_after_exit hover hdone (run_steps id hmore)

/-- The session has taken what its run said first. -/
theorem pumped_isPrefix_said (h : (new machine plan).steps? steps = some w) {s : Session}
    (hs : w.ledger.session = some s) :
    (new machine plan).history (pumped s.id) steps <+:
      (new machine plan).history (said s.id) steps := by
  have hmirrors := mirrors h
  cases hheard : s.isHeard with
  | true =>
    rw [← pumped_append_queue h (hmirrors.listening hs hheard)]
    exact List.prefix_append _ _
  | false =>
    have hstate := (hmirrors.follows s hs).2
    cases hs' : s.state with
    | running | completed code => simp [Session.isHeard, hs'] at hheard
    | failed cause =>
      rw [hs'] at hstate
      rw [show (new machine plan).history (pumped s.id) steps = [] from hstate]
      exact List.nil_prefix

/-- The pump of another run changes nothing. -/
theorem ledger_pump_other {s : Session} (hs : w.ledger.session = some s) {id : SessionId}
    (hid : id ≠ s.id) (hx : w.step? (.pump id) = some w') : w'.ledger = w.ledger := by
  obtain ⟨r, e, es, -, -, rfl⟩ := pump_cases hx
  apply Ledger.apply_of_not_isPending
  cases hpending : w.ledger.isPending id with
  | false => rfl
  | true =>
    obtain ⟨t, ht, ht', -⟩ := Ledger.isPending_iff.1 hpending
    rw [hs, Option.some.injEq] at ht
    subst ht
    exact absurd ht'.symm hid

/-- The current session belongs to its own run alone.  Its script is the one that the run was begun
with, and its output is what the pump of this run has taken, line by line, from the beginning of
what the run has said: lines of standard output as they are, and those of standard error with their
findings.  It is completed exactly when the exit of this run has been taken; then it
has everything that the run says, and the exit tells its code.  Whatever the pump of another run
carries to the ledger changes nothing there, and neither does what happens inside a run before a
pump carries it. -/
theorem session_own (h : (new machine plan).steps? steps = some w) {s : Session}
    (hs : w.ledger.session = some s) :
    let own := (new machine plan).history (pumped s.id) steps
    (∀ script, (s.id, script) ∈ (new machine plan).history begun steps ↔ script = s.script) ∧
    s.output = own.filterMap (fun
      | .line .stdout text => some (.stdout text)
      | .line .stderr text => some (.stderr (ErrorLine.ofText text))
      | .exited _ => none) ∧
    own <+: (new machine plan).history (said s.id) steps ∧
    (∀ code, s.state = .completed code ↔ .exited code ∈ own) ∧
    (∀ code, s.state = .completed code →
      (∃ lines, own = lines ++ [.exited code] ∧ ∀ e ∈ lines, e.isLine = true) ∧
      (new machine plan).history (said s.id) steps = own ∧
      ∀ more w', w.steps? more = some w' → w.history (said s.id) more = []) ∧
    (∀ i w', i ≠ s.id → w.step? (.pump i) = some w' → w'.ledger = w.ledger) ∧
    (∀ i x w', w.step? (.inside i x) = some w' → w'.ledger = w.ledger) := by
  intro own
  have hmirrors := mirrors h
  have hfollows : s.Follows own := hmirrors.follows s hs
  refine ⟨hmirrors.script s hs, hfollows.1, pumped_isPrefix_said h hs, hfollows.completed_iff, ?_,
    fun i w' hi hx => ledger_pump_other hs hi hx, ?_⟩
  · intro code hcompleted
    have hl : (w.view s.id).listening = true := by
      apply hmirrors.listening hs
      simp [Session.isHeard, hcompleted]
    have hexit : .exited code ∈ own := (hfollows.completed_iff code).1 hcompleted
    have hstate := hfollows.2
    rw [hcompleted] at hstate
    exact ⟨hstate, said_of_exited h hl hexit⟩
  · intro i x w' hx
    obtain ⟨r, r', -, -, rfl⟩ := inside_cases hx
    rfl

/-- The second run prints a line and a finding and is over before the pump of the first run has
carried its line. -/
def lateLine : List Step :=
  [.run ['a'] none, .inside 1 (.write .stdout [120, 10]), .inside 1 (.read .stdout 2),
    .inside 1 (.send .stdout), .run ['b'] none, .inside 2 (.write .stdout [121, 13, 10]),
    .inside 2 (.write .stderr [98, 46, 107, 116, 115, 58, 49, 58, 50, 58, 109]),
    .inside 2 (.finish (.exited 3)), .inside 2 (.read .stdout 3), .inside 2 (.send .stdout),
    .inside 2 (.read .stderr 11), .inside 2 (.readEnd .stderr), .inside 2 (.send .stderr),
    .inside 2 (.readEnd .stdout), .inside 2 .join, .inside 2 .poll, .inside 2 .report, .pump 2,
    .pump 2, .pump 2]

/-- The session of the second run has the line as it came and the finding with its parts, and it
keeps them when the pump of the first run carries its line. -/
theorem session_own_late_line :
    let entries := [.stdout ['y'],
      .stderr (.finding ⟨[], ['b', '.', 'k', 't', 's'], ⟨1, 2⟩, ['m']⟩)]
    let own := desk.history (pumped 2) lateLine
    ∃ w w', desk.steps? lateLine = some w ∧ w.step? (.pump 1) = some w' ∧
      w.ledger.session = some ⟨2, ['b'], .completed (some 3), entries⟩ ∧
      own = [.line .stdout ['y'],
        .line .stderr ['b', '.', 'k', 't', 's', ':', '1', ':', '2', ':', 'm'],
        .exited (some 3)] ∧
      entries = own.filterMap (fun
        | .line .stdout text => some (.stdout text)
        | .line .stderr text => some (.stderr (ErrorLine.ofText text))
        | .exited _ => none) ∧
      desk.history (said 2) lateLine = own ∧
      w'.ledger = w.ledger := by
  intro entries own
  have hend : (desk.steps? lateLine).isSome = true := by decide +kernel
  have hmore : ((desk.steps? lateLine).bind fun w => w.step? (.pump 1)).isSome = true := by
    decide +kernel
  obtain ⟨w, hw⟩ := Option.isSome_iff_exists.1 hend
  rw [hw] at hmore
  obtain ⟨w', hx⟩ := Option.isSome_iff_exists.1 hmore
  have hsession : w.ledger.session = some ⟨2, ['b'], .completed (some 3), entries⟩ :=
    Schedule.eq_of_map_after? (f := fun w : Workbench => w.ledger.session) hw (by decide +kernel)
  obtain ⟨-, houtput, -, -, hcompleted, hother, -⟩ := session_own hw hsession
  obtain ⟨-, hsaid, -⟩ := hcompleted (some 3) rfl
  exact ⟨w, w', hw, hx, hsession, by decide +kernel, houtput, hsaid, hother 1 w' (by decide) hx⟩

end Workbench

end ScriptWorkbench
