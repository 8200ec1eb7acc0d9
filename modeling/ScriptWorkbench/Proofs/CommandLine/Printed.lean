import ScriptWorkbench.Proofs.Session.Progress
import ScriptWorkbench.Proofs.Session.Settling
import ScriptWorkbench.Proofs.Session.Subscribers

/-!
# What running a script prints

A command that runs a script subscribes before the run begins and prints what it is told until it
is told that the run has ended.  Whatever the readers, the waiter and the pump do in between, it
prints the lines of both streams, each line once and on its own stream, and then how the run ended
(`CommandLine.run_printed`).
-/

set_option autoImplicit false

namespace ScriptWorkbench

/-- The lines of a stream as the command line prints them. -/
def Lines.inPrint (p : Palette) (s : Stream) (lines : List Text) : Text :=
  lines.flatMap fun line => (Entry.ofLine s line).render p ++ ['\n']

namespace Outcome

/-- How a command ends whose session has come to a state. -/
def ofState : SessionState → Outcome
  | .running => ⟨1, [], []⟩
  | .completed code => ofCode code
  | .failed cause => ofCause cause

/-- The updates of a session print its output and then how it ended. -/
theorem ofUpdates_updates (p : Palette) (s : Session) :
    ofUpdates p s.id s.updates = s.output.foldr (printEntry p) (ofState s.state) := by
  have hentries : ∀ (entries : List Entry) (us : List Update),
      ofUpdates p s.id (entries.map (.output s.id) ++ us) =
        entries.foldr (printEntry p) (ofUpdates p s.id us) := by
    intro entries us
    induction entries with
    | nil => rfl
    | cons e es ih => simp [ofUpdates, ih]
  rw [Session.updates, ofUpdates, if_pos rfl]
  refine (hentries _ _).trans ?_
  cases s.state <;> simp [ofUpdates, ofState]

/-- Printing the entries of a row of events prints the lines of each stream on that stream. -/
theorem foldr_printEntry (p : Palette) (o : Outcome) (events : List Event) :
    (events.filterMap Event.entry?).foldr (printEntry p) o =
      ⟨o.status, Lines.inPrint p .stdout (events.filterMap (Event.lineOn? .stdout)) ++ o.out,
        Lines.inPrint p .stderr (events.filterMap (Event.lineOn? .stderr)) ++ o.err⟩ := by
  induction events with
  | nil => rfl
  | cons e es ih =>
    cases e with
    | exited code => exact ih
    | line s text =>
      rw [List.filterMap_cons_some (Event.entry?_line s text), List.foldr_cons, ih]
      cases s <;> simp [Event.lineOn?, Lines.inPrint, printEntry, printOut, printErr, Entry.ofLine]

end Outcome

namespace CommandLine

open Workbench

/-- What a command that runs a script has been told after some steps, whether it has looked or
not. -/
def heard (first : Workbench) (steps : List Step) (w : Workbench) : List Update :=
  first.history (received 0) steps ++ (w.ledger.inbox? 0).getD []

variable {m : Machine} {p : Plan} {script : Text} {hitch : Option Hitch} {steps : List Step}
  {w : Workbench}

/-- The first subscriber and the run are the first two steps of a workbench. -/
theorem steps?_first :
    (new m p).steps? (.subscribe :: .run script hitch :: steps) =
      ((freshWorkbench m p).run script hitch).steps? steps :=
  rfl

/-- The session of the run as it is when the run has begun. -/
theorem session_first :
    ((freshWorkbench m p).run script hitch).ledger.session = some ⟨1, script,
      match (freshWorkbench m p).started script hitch with
      | .ok _ => .running
      | .error cause => .failed cause, []⟩ := by
  rw [ledger_run, Ledger.session_enter]
  rfl

/-- The session of the run stays the current one.  It is heard of if the run was started; else it
has failed and stays so. -/
theorem exists_session (hrest : ∀ x ∈ steps, x.isUnattended = true)
    (h : ((freshWorkbench m p).run script hitch).steps? steps = some w) :
    ∃ s, w.ledger.session = some s ∧ s.id = 1 ∧ w.ledger.issued = 1 ∧
      ((freshWorkbench m p).started script hitch = .ok () → s.isHeard = true) ∧
      ∀ cause, (freshWorkbench m p).started script hitch = .error cause →
        s.state = .failed cause ∧ s.output = [] := by
  obtain ⟨s, hs, hid, hheard, hover, hissued⟩ := session_steps session_first hrest h
  have hfirst : ((freshWorkbench m p).run script hitch).ledger.issued = 1 := by
    rw [ledger_run, Ledger.issued_enter]
    rfl
  refine ⟨s, hs, hid, hissued.trans hfirst, ?_, ?_⟩
  · intro hstarted
    rw [hheard, hstarted]
    rfl
  · intro cause hstarted
    rw [hstarted] at hover
    rw [hover (by simp)]
    exact ⟨rfl, rfl⟩

/-- What the command is told is what is announced of its session. -/
theorem heard_eq_updates (hrest : ∀ x ∈ steps, x.isUnattended = true)
    (h : ((freshWorkbench m p).run script hitch).steps? steps = some w) {s : Session}
    (hs : w.ledger.session = some s) :
    heard ((freshWorkbench m p).run script hitch) steps w = s.updates := by
  obtain ⟨t, ht, hid, hissued, -⟩ := exists_session hrest h
  rw [hs, Option.some.injEq] at ht
  subst ht
  have hall : (new m p).steps? (.subscribe :: .run script hitch :: steps) = some w :=
    steps?_first.trans h
  have hstay : .unsubscribe 0 ∉ Step.run script hitch :: steps := by
    intro hmem
    rcases List.mem_cons.1 hmem with heq | hmem
    · cases heq
    · have hunattended := hrest _ hmem
      cases hunattended
  obtain ⟨inbox, hinbox, hlog⟩ := received_since (a := []) hall rfl hstay
  have hinbox0 : w.ledger.inbox? 0 = some inbox := hinbox
  have hheard : heard ((freshWorkbench m p).run script hitch) steps w =
      (new m p).history announced (.subscribe :: .run script hitch :: steps) := by
    rw [heard, hinbox0, Option.getD_some]
    exact hlog
  -- there is only one run, so all that is announced is about it
  have hown : ∀ u ∈ (new m p).history announced (.subscribe :: .run script hitch :: steps),
      u.id = s.id := by
    intro u hu
    obtain ⟨hpos, hle⟩ := announced_issued hall u hu
    rw [hissued] at hle
    exact (Nat.le_antisymm hle hpos).trans hid.symm
  have hmem : s ∈ (new m p).sessions (.subscribe :: .run script hitch :: steps) w := by
    simp [sessions, hs]
  rw [hheard, ← filter_announced hall hmem, eq_comm, List.filter_eq_self]
  intro u hu
  simp [hown u hu]

/-- A command whose script cannot be run prints why. -/
theorem outcome_failed (q : Palette) (hrest : ∀ x ∈ steps, x.isUnattended = true)
    (h : ((freshWorkbench m p).run script hitch).steps? steps = some w) {cause : Failure}
    (hstarted : (freshWorkbench m p).started script hitch = .error cause) :
    Outcome.ofUpdates q 1 (heard ((freshWorkbench m p).run script hitch) steps w) =
      Outcome.ofCause cause := by
  obtain ⟨s, hs, hid, -, -, hfailed⟩ := exists_session hrest h
  obtain ⟨hstate, houtput⟩ := hfailed cause hstarted
  rw [heard_eq_updates hrest h hs, ← hid, Outcome.ofUpdates_updates, houtput, hstate]
  rfl

/-! ## A run that was started -/

/-- What happens in the run happens from its very beginning. -/
theorem steps?_view (hstarted : (freshWorkbench m p).started script hitch = .ok ())
    (h : ((freshWorkbench m p).run script hitch).steps? steps = some w) :
    ((freshWorkbench m p).run script hitch).view 1 = {} ∧
      ({} : Run).steps? (((freshWorkbench m p).run script hitch).history (runMoves 1) steps) =
        some (w.view 1) := by
  have hview : ((freshWorkbench m p).run script hitch).view 1 = {} := by
    rw [view, run?_run, hstarted]
    rfl
  refine ⟨hview, ?_⟩
  have hrun := run_steps 1 h
  rwa [hview] at hrun

/-- The command is told that the run has completed when the session is. -/
theorem completed_mem_heard_iff (hrest : ∀ x ∈ steps, x.isUnattended = true)
    (h : ((freshWorkbench m p).run script hitch).steps? steps = some w) {s : Session}
    (hs : w.ledger.session = some s) (code : Option ExitCode) :
    .state 1 (.completed code) ∈ heard ((freshWorkbench m p).run script hitch) steps w ↔
      s.state = .completed code := by
  obtain ⟨t, ht, hid, -⟩ := exists_session hrest h
  rw [hs, Option.some.injEq] at ht
  subst ht
  rw [heard_eq_updates hrest h hs, Session.updates, hid]
  cases s.state <;> simp [eq_comm]

/-- A session that is completed has everything that its run said. -/
theorem output_completed (hstarted : (freshWorkbench m p).started script hitch = .ok ())
    (h : ((freshWorkbench m p).run script hitch).steps? steps = some w) {s : Session}
    (hs : w.ledger.session = some s) (hid : s.id = 1) {code : Option ExitCode}
    (hcompleted : s.state = .completed code) :
    let sent := ({} : Run).history Run.sent
      (((freshWorkbench m p).run script hitch).history (runMoves 1) steps)
    s.output = sent.filterMap Event.entry? ∧ .exited code ∈ sent ∧ (w.view 1).isOver = true := by
  intro sent
  have hall : (new m p).steps? (.subscribe :: .run script hitch :: steps) = some w :=
    steps?_first.trans h
  have hmirrors := mirrors hall
  have hfollows := hmirrors.follows s hs
  have hexit := (hfollows.completed_iff code).1 hcompleted
  have hheard : s.isHeard = true := by simp [Session.isHeard, hcompleted]
  have hsaid := (said_of_exited hall (hmirrors.listening hs hheard) hexit).1
  have hsent : (new m p).history (said s.id) (.subscribe :: .run script hitch :: steps) = sent := by
    rw [hid]
    have hrun := history_said 1 h
    rwa [(steps?_view hstarted h).1] at hrun
  rw [← hsaid, hsent] at hexit
  have houtput := hfollows.1
  rw [← hsaid, hsent] at houtput
  refine ⟨houtput, hexit, ?_⟩
  cases hover : (w.view 1).isOver with
  | true => rfl
  | false =>
    have hlines := (Run.orderly (steps?_view hstarted h).2).lines hover
    exact absurd hexit (Event.exited_notMem hlines code)

/-- A command whose run has completed has printed the lines that the readers made of the bytes that
they took, and then the code. -/
theorem outcome_completed (q : Palette) (hrest : ∀ x ∈ steps, x.isUnattended = true)
    (hstarted : (freshWorkbench m p).started script hitch = .ok ())
    (h : ((freshWorkbench m p).run script hitch).steps? steps = some w) {code : Option ExitCode}
    (hcompleted : .state 1 (.completed code) ∈
      heard ((freshWorkbench m p).run script hitch) steps w) :
    let taken := fun s => ({} : Run).history (Run.consumed s)
      (((freshWorkbench m p).run script hitch).history (runMoves 1) steps)
    Outcome.ofUpdates q 1 (heard ((freshWorkbench m p).run script hitch) steps w) =
      ⟨(Outcome.ofCode code).status,
        Lines.inPrint q .stdout (Lines.ofStream (taken .stdout)),
        Lines.inPrint q .stderr (Lines.ofStream (taken .stderr)) ++
          (Outcome.ofCode code).err⟩ := by
  intro taken
  obtain ⟨s, hs, hid, -⟩ := exists_session hrest h
  have hstate := (completed_mem_heard_iff hrest h hs code).1 hcompleted
  obtain ⟨houtput, -, hover⟩ := output_completed hstarted h hs hid hstate
  obtain ⟨lines, last, hsent, -, hlines⟩ := Run.isReport_sent (steps?_view hstarted h).2 hover
  -- the exit at the end of the report is not a line of either stream
  have hstream : ∀ t, (lines ++ [Event.exited last]).filterMap (Event.lineOn? t) =
      Lines.ofStream (taken t) := by
    intro t
    have hexit : [Event.exited last].filterMap (Event.lineOn? t) = [] := rfl
    rw [List.filterMap_append, hexit, List.append_nil]
    exact hlines t
  have hout : (Outcome.ofCode code).out = [] := by
    cases code <;> rfl
  rw [heard_eq_updates hrest h hs, ← hid, Outcome.ofUpdates_updates, houtput, hsent,
    Outcome.foldr_printEntry, hstate, hstream, hstream]
  simp only [Outcome.ofState, hout, List.append_nil]

/-- Nothing more is said to a command whose session has come to its end. -/
theorem heard_append (hrest : ∀ x ∈ steps, x.isUnattended = true)
    (h : ((freshWorkbench m p).run script hitch).steps? steps = some w) {s : Session}
    (hs : w.ledger.session = some s) (hover : s.state ≠ .running) {more : List Step}
    (hmore : ∀ x ∈ more, x.isUnattended = true) {w' : Workbench} (hw' : w.steps? more = some w') :
    heard ((freshWorkbench m p).run script hitch) (steps ++ more) w' =
      heard ((freshWorkbench m p).run script hitch) steps w := by
  obtain ⟨t, ht, -, -, hsame, -⟩ := session_steps hs hmore hw'
  obtain rfl := hsame hover
  have hall : ((freshWorkbench m p).run script hitch).steps? (steps ++ more) = some w' :=
    Schedule.after?_trans h hw'
  have hboth : ∀ x ∈ steps ++ more, x.isUnattended = true :=
    List.forall_mem_append.2 ⟨hrest, hmore⟩
  rw [heard_eq_updates hboth hall ht, heard_eq_updates hrest h hs]

/-- The readers, the waiter and the pump come to the point where the command is told that its run
has completed. -/
theorem told_of_own (hrest : ∀ x ∈ steps, x.isUnattended = true)
    (hstarted : (freshWorkbench m p).started script hitch = .ok ())
    (h : ((freshWorkbench m p).run script hitch).steps? steps = some w)
    (hstatus : (w.view 1).status.isSome = true) (hclosed : ∀ s, (w.view 1).isOpen s = false)
    {own : List Step} (hown : ∀ x ∈ own, x.isOwnOf 1 = true) {w' : Workbench}
    (hw' : w.steps? own = some w') :
    own.length ≤ (w.view 1).effort ∧
      ((∃ code, .state 1 (.completed code) ∈
        heard ((freshWorkbench m p).run script hitch) (steps ++ own) w') ∨
        ∃ x : Step, x.isOwnOf 1 = true ∧ (w'.step? x).isSome = true) := by
  have hall : (new m p).steps? (.subscribe :: .run script hitch :: steps) = some w :=
    steps?_first.trans h
  obtain ⟨s, hs, hid, -, hheard, -⟩ := exists_session hrest h
  rw [← hid] at hstatus hclosed hown ⊢
  obtain ⟨hlen, hstuck⟩ := own_steps hall hs (hheard hstarted) hstatus hclosed hown hw'
  refine ⟨by omega, ?_⟩
  rcases hstuck with ⟨t, code, ht, -, hcompleted⟩ | hpossible
  · left
    have hboth : ((freshWorkbench m p).run script hitch).steps? (steps ++ own) = some w' :=
      Schedule.after?_trans h hw'
    have hunattended : ∀ x ∈ steps ++ own, x.isUnattended = true :=
      List.forall_mem_append.2 ⟨hrest, fun x hx => Step.isUnattended_of_isOwnOf (hown x hx)⟩
    refine ⟨code, ?_⟩
    rw [hid]
    exact (completed_mem_heard_iff hunattended hboth ht code).2 hcompleted
  · exact Or.inr hpossible

/-! ## The whole command -/

/-- A command that runs a script hands it over, with the settings. -/
theorem respond_run {arguments : List Text} {i : Invocation} {settings : Settings}
    (hask : Invocation.ofArguments arguments = .ok i) (hcommand : i.command = "run".toList)
    (hload : Settings.load m.readText m.temporary i.settings = .ok settings)
    (hread : m.readText i.file = .ok script) :
    respond m.readText m.temporary arguments = .ok (.run settings script) := by
  rw [respond_eq_perform hask hload hread, perform, hcommand, if_neg (by decide),
    if_neg (by decide), if_pos rfl]

/-- With an interpreter that obeys commands, the whole command is one way in which its run can
go. -/
theorem exists_steps?_runScript (m : Machine) (settings : Settings) (script : Text)
    (commands : List Command) :
    ∃ steps w, (∀ x ∈ steps, x.isUnattended = true) ∧
      ((freshWorkbench m settings.plan).run script).steps? steps = some w ∧
      runScript m settings script commands = Outcome.ofUpdates settings.scheme.palette 1
        (heard ((freshWorkbench m settings.plan).run script) steps w) := by
  have hnumbered : ((freshWorkbench m settings.plan).run script).IsNumbered := by
    have hbefore : (freshWorkbench m settings.plan).killCurrent.runs = [] := rfl
    unfold IsNumbered
    rw [runs_run, hbefore]
    cases (freshWorkbench m settings.plan).newcomer _ <;> simp
  have hsettled := evolves_settle hnumbered
  obtain ⟨steps, hof, hw⟩ :=
    hsettled.trans (evolves_obeyAll (hsettled.isNumbered hnumbered) commands)
  have hunattended : ∀ x ∈ steps, x.isUnattended = true := by
    intro x hx
    have hrun := hof x hx
    cases x <;> first | rfl | cases hrun
  refine ⟨steps, _, hunattended, hw, ?_⟩
  have hanswer : (freshWorkbench m settings.plan).submit script =
      (1, (freshWorkbench m settings.plan).run script) := Prod.ext (submit_fst _ _ _) rfl
  unfold runScript printed heard
  rw [hanswer, received_eq_nil hof, List.nil_append]

/-- A command that runs a script, with settings that can be loaded and a script that can be read.
If the run cannot be started, the command says why on standard error, prints nothing else and ends
with the status 127.  If it is started, then whatever the interpreter writes, however the streams
are cut and whoever acts first: when the command is told that the run has completed, it has printed
the lines of standard output on standard output, the lines of standard error on standard error, all
of them once and in order, and last how the run ended; nothing comes after that.  The status is the
code of the interpreter, or one if a signal ended it.  The bytes that count are those that were
written, unless a read failed.  Once the interpreter has ended and both streams are closed, readers,
waiter and pump do not stop before the command has been told.  With an interpreter that obeys
commands, the whole command is one of these runs. -/
theorem run_printed {arguments : List Text} {i : Invocation} {settings : Settings}
    (hask : Invocation.ofArguments arguments = .ok i) (hcommand : i.command = "run".toList)
    (hload : Settings.load m.readText m.temporary i.settings = .ok settings)
    (hread : m.readText i.file = .ok script) :
    let bench := freshWorkbench m settings.plan
    let palette := settings.scheme.palette
    let prints := Outcome.ofUpdates palette 1
    respond m.readText m.temporary arguments = .ok (.run settings script) ∧
    (∀ obey, ∃ steps w, (∀ x ∈ steps, x.isUnattended = true) ∧
      (bench.run script).steps? steps = some w ∧
      execute m obey arguments = .ok (prints (heard (bench.run script) steps w))) ∧
    ∀ hitch steps w, (∀ x ∈ steps, x.isUnattended = true) →
      (bench.run script hitch).steps? steps = some w →
      let first := bench.run script hitch
      let told := heard first steps w
      (∀ cause, bench.started script hitch = .error cause →
        prints told = ⟨127, [], "Error: ".toList ++ cause.message ++ ['\n']⟩) ∧
      (bench.started script hitch = .ok () →
        let moves := first.history (runMoves 1) steps
        let written := fun s => ({} : Run).history (Run.written s) moves
        let taken := fun s => ({} : Run).history (Run.consumed s) moves
        ({} : Run).steps? moves = some (w.view 1) ∧
        (∀ code, .state 1 (.completed code) ∈ told →
          prints told =
            ⟨match code with
              | some n => if n < 256 then n else 1
              | none => 1,
            (Lines.ofStream (taken .stdout)).flatMap fun line =>
              (Entry.stdout line).render palette ++ ['\n'],
            ((Lines.ofStream (taken .stderr)).flatMap fun line =>
              (Entry.stderr (ErrorLine.ofText line)).render palette ++ ['\n']) ++
              ("Return code: ".toList ++ (match code with
                | some n => Text.decimal n
                | none => "none (killed)".toList) ++ ['\n'])⟩ ∧
          (∀ s, .readFail s ∉ moves → taken s = written s) ∧
          (.pollFail ∉ moves →
            ∃ status, (w.view 1).status = some status ∧ status.code? = code) ∧
          ∀ more w', (∀ x ∈ more, x.isUnattended = true) → w.steps? more = some w' →
            heard first (steps ++ more) w' = told) ∧
        ((w.view 1).status.isSome = true → (∀ s, (w.view 1).isOpen s = false) →
          ∀ own w', (∀ x ∈ own, x.isOwnOf 1 = true) → w.steps? own = some w' →
            own.length ≤ (w.view 1).effort ∧
            ((∃ code, .state 1 (.completed code) ∈ heard first (steps ++ own) w') ∨
              ∃ x : Step, x.isOwnOf 1 = true ∧ (w'.step? x).isSome = true))) := by
  intro bench palette prints
  have hrespond := respond_run hask hcommand hload hread
  refine ⟨hrespond, ?_, ?_⟩
  · intro obey
    obtain ⟨steps, w, hrest, hw, hrun⟩ := exists_steps?_runScript m settings script (obey script)
    refine ⟨steps, w, hrest, hw, ?_⟩
    unfold execute
    rw [hrespond]
    exact congrArg Except.ok hrun
  · intro hitch steps w hrest h first told
    refine ⟨fun cause hstarted => outcome_failed palette hrest h hstarted, ?_⟩
    intro hstarted moves written taken
    have hrun := (steps?_view hstarted h).2
    refine ⟨hrun, ?_, ?_⟩
    · intro code hcompleted
      obtain ⟨s, hs, hid, -⟩ := exists_session hrest h
      have hstate := (completed_mem_heard_iff hrest h hs code).1 hcompleted
      obtain ⟨-, hexit, hover⟩ := output_completed hstarted h hs hid hstate
      refine ⟨?_, fun t hread => Run.consumed_eq_written hrun hover hread,
        fun hpoll => Run.exit_code hrun hpoll hexit, ?_⟩
      · have hprinted := outcome_completed palette hrest hstarted h hcompleted
        cases code with
        | some n => exact hprinted
        | none => exact hprinted
      · intro more w' hmore hw'
        exact heard_append hrest h hs (by simp [hstate]) hmore hw'
    · intro hstatus hclosed own w' hown hw'
      exact told_of_own hrest hstarted h hstatus hclosed hown hw'

/-- A result that has a value is that value. -/
theorem eq_ok_of_toOption {ε α : Type} {x : Except ε α} {a : α} (h : x.toOption = some a) :
    x = .ok a := by
  cases x with
  | error e => cases h
  | ok b => exact congrArg Except.ok (Option.some.inj h)

/-- A machine with an interpreter, a settings file that names it, and a script. -/
def office : Machine :=
  ⟨[(['k'], .file [] true),
    (['c'], .file (Text.bytes "[[\"/k\",null,\"/t\",10]]".toList) false),
    (['s'], .file (Text.bytes ['x']) false)], [], ['/'], []⟩

/-- What the settings file of the office says. -/
def officeSettings : Settings :=
  ⟨⟨"/k".toList, none, "/t".toList, 10⟩, {}⟩

/-- An interpreter that writes a line and a half to standard output and half a line to standard
error.  The command looks once while the run is in progress. -/
def chatter : List Step :=
  [.inside 1 (.write .stdout [120, 10, 121]), .inside 1 (.write .stderr [122]),
    .inside 1 (.read .stdout 3), .inside 1 (.send .stdout), .pump 1, .empty 0,
    .inside 1 (.finish (.exited 3)), .inside 1 (.read .stderr 1), .inside 1 (.readEnd .stderr),
    .inside 1 (.send .stderr), .inside 1 (.readEnd .stdout), .inside 1 (.send .stdout),
    .inside 1 .join, .inside 1 .poll, .inside 1 .report, .pump 1, .pump 1, .pump 1]

/-- The command prints the lines of both streams, the unterminated ones too, then the return code,
and ends with it. -/
theorem run_printed_chatter :
    ∃ w, ((freshWorkbench office officeSettings.plan).run ['x']).steps? chatter = some w ∧
      respond office.readText office.temporary
        ["--config".toList, "/c".toList, "run".toList, "/s".toList] =
          .ok (.run officeSettings ['x']) ∧
      Outcome.ofUpdates {} 1
          (heard ((freshWorkbench office officeSettings.plan).run ['x']) chatter w) =
        ⟨3, (Entry.stdout ['x']).render {} ++ '\n' :: (Entry.stdout ['y']).render {} ++ ['\n'],
          (Entry.stderr (.plain ['z'])).render {} ++ "\nReturn code: 3\n".toList⟩ := by
  have hload : Settings.load office.readText office.temporary (some "/c".toList) =
      .ok officeSettings :=
    eq_ok_of_toOption (by decide +kernel)
  have hread : office.readText "/s".toList = .ok ['x'] := eq_ok_of_toOption (by decide +kernel)
  have hask : Invocation.ofArguments
      ["--config".toList, "/c".toList, "run".toList, "/s".toList] =
        .ok ⟨some "/c".toList, "run".toList, "/s".toList, []⟩ := rfl
  obtain ⟨hrespond, -, hruns⟩ := run_printed hask rfl hload hread
  have hend : (((freshWorkbench office officeSettings.plan).run ['x']).steps? chatter).isSome =
      true := by decide +kernel
  obtain ⟨w, hw⟩ := Option.isSome_iff_exists.1 hend
  have hstarted : (freshWorkbench office officeSettings.plan).started ['x'] none = .ok () :=
    eq_ok_of_toOption (by decide +kernel)
  have hcompleted : .state 1 (.completed (some 3)) ∈
      heard ((freshWorkbench office officeSettings.plan).run ['x']) chatter w := by
    have hinbox : w.ledger.inbox? 0 = some [.output 1 (.stderr (.plain ['z'])),
        .output 1 (.stdout ['y']), .state 1 (.completed (some 3))] :=
      Schedule.eq_of_map_after? (f := fun w : Workbench => w.ledger.inbox? 0) hw
        (by decide +kernel)
    simp [heard, hinbox]
  obtain ⟨-, hrun⟩ := hruns none chatter w (by decide) hw
  obtain ⟨-, hprints, -⟩ := hrun hstarted
  refine ⟨w, hw, hrespond, ?_⟩
  exact (hprints (some 3) hcompleted).1.trans (by decide +kernel)

end CommandLine

end ScriptWorkbench
