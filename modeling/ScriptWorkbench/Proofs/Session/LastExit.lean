import ScriptWorkbench.Proofs.Session.Cancelling
import ScriptWorkbench.Proofs.Session.Subscribers

/-!
# The exit code that is kept

A ledger keeps one exit code, across runs.  It is set when the exit of the current session is taken
in and at no other time (`Ledger.lastExit_move`): a new run does not touch it, whether it can be
started or not, and neither does the exit of a run that was superseded.  So it is that of the last
session that was completed, among all sessions that there have been
(`Workbench.lastExit_completed`).
-/

set_option autoImplicit false

namespace ScriptWorkbench

/-- The code of a session, if that is completed. -/
def Session.exit? (s : Session) : Option (Option ExitCode) :=
  match s.state with
  | .completed code => some code
  | .running => none
  | .failed _ => none

/-- A running session has no exit yet. -/
theorem Session.exit?_of_running {s : Session} (h : s.state = .running) : s.exit? = none := by
  rw [exit?, h]

/-- The code of the last session of a row that is completed; none if there is no such session. -/
def lastCode (sessions : List Session) : Option ExitCode :=
  (sessions.filterMap Session.exit?).getLast?.join

/-- A session that is not completed does not count. -/
theorem lastCode_concat_of_none {sessions : List Session} {s : Session} (h : s.exit? = none) :
    lastCode (sessions ++ [s]) = lastCode sessions := by
  simp [lastCode, h]

/-- The last code is that of the last session, if that has completed. -/
theorem lastCode_concat {sessions : List Session} {s : Session} {code : Option ExitCode}
    (h : s.state = .completed code) : lastCode (sessions ++ [s]) = code := by
  simp [lastCode, Session.exit?, h]

namespace Ledger

/-- The exit code that is kept stays unless the current session is running and its exit comes in. -/
theorem lastExit_move {l : Ledger} {m : Move}
    (hm : ∀ id code, m = .notice id (.exited code) → l.isPending id = false) :
    (l.move m).lastExit = l.lastExit := by
  cases m with
  | enter script started => cases started <;> rfl
  | notice id n =>
    cases hpending : l.isPending id with
    | false => rw [move, apply_of_not_isPending hpending]
    | true =>
      obtain ⟨s, hs, rfl, hrunning⟩ := isPending_iff.1 hpending
      cases n with
      | output entry =>
        rw [move, apply_output hs hrunning]
        rfl
      | exited code =>
        rw [hm s.id code rfl] at hpending
        cases hpending
  | subscribe | unsubscribe i | empty i => rfl

/-- The session of a run that is entered is not completed. -/
theorem exists_session_enter (l : Ledger) (script : Text) (started : Except Failure Unit) :
    ∃ t, (l.enter script started).session = some t ∧ t.exit? = none := by
  refine ⟨_, session_enter l script started, ?_⟩
  cases started <;> rfl

/-- The exit code that is kept is that of the last session that was completed, among those that were
retired and the current one. -/
theorem lastExit_eq {moves : List Move} {l : Ledger} (h : ({} : Ledger).moves? moves = some l) :
    l.lastExit = lastCode (({} : Ledger).history retired moves ++ l.session.toList) := by
  refine Schedule.concat_induction
    (P := fun moves l =>
      l.lastExit = lastCode (({} : Ledger).history retired moves ++ l.session.toList)) rfl ?_ h
  intro moves l m l' hl ih hm
  cases hm
  have hmove : step? l m = some (l.move m) := rfl
  rw [history, Schedule.along_concat hl hmove]
  cases m with
  | enter script started =>
    -- the old session only changes its place in the row, and the new one is not completed
    obtain ⟨t, ht, hnew⟩ := exists_session_enter l script started
    rw [lastExit_move (by simp), move, ht, Option.toList_some, lastCode_concat_of_none hnew]
    exact ih
  | notice id n =>
    have hretired : l.retired (.notice id n) = [] := rfl
    rw [hretired, List.append_nil]
    cases hpending : l.isPending id with
    | false =>
      rw [move, apply_of_not_isPending hpending]
      exact ih
    | true =>
      obtain ⟨s, hs, rfl, hrunning⟩ := isPending_iff.1 hpending
      cases n with
      | output entry =>
        -- the session is running before and after
        have hlater : ({ s with output := s.output ++ [entry] } : Session).exit? = none :=
          Session.exit?_of_running hrunning
        rw [lastExit_move (by simp), ih, hs, Option.toList_some,
          lastCode_concat_of_none (Session.exit?_of_running hrunning), move,
          apply_output hs hrunning]
        exact (lastCode_concat_of_none hlater).symm
      | exited code =>
        rw [move, apply_exited hs hrunning]
        exact (lastCode_concat rfl).symm
  | subscribe | unsubscribe i | empty i =>
    rw [retired, List.append_nil]
    · exact ih
    · simp

end Ledger

namespace Workbench

variable {machine : Machine} {plan : Plan} {steps : List Step} {w w' : Workbench}

/-- The exit code that is kept stays as it is in every step but that in which the pump of the
current session's run brings its exit. -/
theorem lastExit_step {x : Step} (hx : w.step? x = some w')
    (hother : ∀ s code, w.ledger.session = some s → s.state = .running → x = .pump s.id →
      w.pumped s.id x ≠ [.exited code]) :
    w'.ledger.lastExit = w.ledger.lastExit := by
  have hmoves := ledger_step w x w' hx
  cases x with
  | run script hitch =>
    rw [← Option.some.inj hx, ledger_run]
    exact Ledger.lastExit_move (m := .enter script _) (by simp)
  | pump id =>
    obtain ⟨r, e, es, hr, hqueue, rfl⟩ := pump_cases hx
    refine Ledger.lastExit_move (m := .notice id (.ofEvent e)) ?_
    intro i code heq
    obtain ⟨rfl, hnotice⟩ := Ledger.Move.notice.inj heq
    rw [← Bool.not_eq_true, Ledger.isPending_iff]
    rintro ⟨s, hs, rfl, hrunning⟩
    cases e with
    | line t text => cases hnotice
    | exited last => exact hother s last hs hrunning rfl (by simp [pumped, hr, hqueue])
  | subscribe | unsubscribe i | empty i =>
    simp only [moves, Schedule.after?, Ledger.step?, Option.bind_some, Option.some.injEq] at hmoves
    rw [← hmoves]
    rfl
  | cancel | await i | look i | inside i y | meddle machine | permit reply =>
    simp only [moves, Schedule.after?, Option.some.injEq] at hmoves
    rw [← hmoves]

/-- The exit of the current session sets the exit code that is kept. -/
theorem lastExit_pump {s : Session} (hs : w.ledger.session = some s) (hrunning : s.state = .running)
    (hx : w.step? (.pump s.id) = some w') {code : Option ExitCode}
    (hexit : w.pumped s.id (.pump s.id) = [.exited code]) :
    w'.ledger.session = some { s with state := .completed code } ∧ w'.ledger.lastExit = code := by
  obtain ⟨r, e, es, hr, hqueue, rfl⟩ := pump_cases hx
  obtain rfl : e = .exited code := by simpa [pumped, hr, hqueue] using hexit
  refine ⟨Ledger.session_notice hs hrunning (.exited code), ?_⟩
  exact congrArg Ledger.lastExit (Ledger.apply_exited hs hrunning code)

/-- The exit code that is kept is that of the last run whose session was completed, and there is
none before the first one was.  The sessions are those of all runs that have begun, one for each.
So the code of the current session is kept from its completion on.  A run that begins, one that
cannot be started, a cancellation and whatever the pump of another run brings, be it the exit of a
run that was superseded, leave the code alone; only the exit of the current session sets it, and it
completes the session in the same step. -/
theorem lastExit_completed (h : (new machine plan).steps? steps = some w) :
    let sessions := (new machine plan).sessions steps w
    sessions.map (·.id) = List.range' 1 w.ledger.issued ∧
    w.ledger.lastExit = (sessions.filterMap Session.exit?).getLast?.join ∧
    (∀ s code, w.ledger.session = some s → s.state = .completed code → w.ledger.lastExit = code) ∧
    (∀ x w', w.step? x = some w' →
      (∀ s code, w.ledger.session = some s → s.state = .running → x = .pump s.id →
        w.pumped s.id x ≠ [.exited code]) →
      w'.ledger.lastExit = w.ledger.lastExit) ∧
    (∀ s code w', w.ledger.session = some s → s.state = .running →
      w.step? (.pump s.id) = some w' → w.pumped s.id (.pump s.id) = [.exited code] →
      w'.ledger.session = some { s with state := .completed code } ∧
        w'.ledger.lastExit = code) :=
  ⟨ids_sessions h, Ledger.lastExit_eq (ledger_steps h), remembersExit h,
    fun _ _ hx hother => lastExit_step hx hother,
    fun _ _ _ hs hrunning hx hexit => lastExit_pump hs hrunning hx hexit⟩

/-- The second run exits and is superseded before its pump has carried the exit, by a run that
cannot be started. -/
def outrunExit : List Step :=
  [.run ['a'] none, .inside 1 (.finish (.exited 3)), .inside 1 (.readEnd .stdout),
    .inside 1 (.readEnd .stderr), .inside 1 .join, .inside 1 .poll, .inside 1 .report, .pump 1,
    .run ['b'] none, .inside 2 (.finish (.exited 5)), .inside 2 (.readEnd .stdout),
    .inside 2 (.readEnd .stderr), .inside 2 .join, .inside 2 .poll, .inside 2 .report,
    .run ['c'] (some (.pipe .stdout))]

/-- The exit of a run that was superseded changes nothing, although its pump takes it, and neither
does a run that could not be started. -/
theorem lastExit_completed_outrun :
    ∃ w w', desk.steps? outrunExit = some w ∧
      desk.sessions outrunExit w =
        [⟨1, ['a'], .completed (some 3), []⟩, ⟨2, ['b'], .running, []⟩,
          ⟨3, ['c'], .failed (.launch (.missingPipe .stdout)), []⟩] ∧
      w.ledger.lastExit = some 3 ∧ w.pumped 2 (.pump 2) = [.exited (some 5)] ∧
      w.step? (.pump 2) = some w' ∧ w'.ledger.lastExit = some 3 := by
  have hend : (desk.steps? (outrunExit ++ [.pump 2])).isSome = true := by decide +kernel
  obtain ⟨w', hw'⟩ := Option.isSome_iff_exists.1 hend
  rw [steps?, Schedule.after?_concat] at hw'
  obtain ⟨w, hw, hx⟩ := Option.bind_eq_some_iff.1 hw'
  have hsessions : desk.sessions outrunExit w =
      [⟨1, ['a'], .completed (some 3), []⟩, ⟨2, ['b'], .running, []⟩,
        ⟨3, ['c'], .failed (.launch (.missingPipe .stdout)), []⟩] :=
    Schedule.eq_of_map_after? (f := fun w => desk.sessions outrunExit w) hw (by decide +kernel)
  have hpumped : w.pumped 2 (.pump 2) = [.exited (some 5)] :=
    Schedule.eq_of_map_after? (f := fun w : Workbench => w.pumped 2 (.pump 2)) hw
      (by decide +kernel)
  have hsession : w.ledger.session =
      some ⟨3, ['c'], .failed (.launch (.missingPipe .stdout)), []⟩ :=
    Schedule.eq_of_map_after? (f := fun w : Workbench => w.ledger.session) hw (by decide +kernel)
  obtain ⟨-, hlast, -, hsame, -⟩ := lastExit_completed hw
  have hthree : w.ledger.lastExit = some 3 := by
    rw [hlast, show sessions (new _ _) outrunExit w = _ from hsessions]
    rfl
  refine ⟨w, w', hw, hsessions, hthree, hpumped, hx, ?_⟩
  rw [hsame (.pump 2) w' hx, hthree]
  intro s code hs _ hid
  rw [hsession, Option.some.injEq] at hs
  rw [← hs] at hid
  cases hid

end Workbench

end ScriptWorkbench
