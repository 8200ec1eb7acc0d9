import ScriptWorkbench.Proofs.Run.Killed

/-!
# Kills do no harm

A kill takes streams and life from the processes of a run and leaves everything that is on its way
to whoever listens (`Run.kill_onItsWay`): what has been written stays to be read, and whatever a
reader or the waiter can do next, it can do after the kill.  Once the waiter has collected how the
interpreter ended, or has failed to, a kill does nothing at all, and the exit that is sent then is
the one that was collected (`Run.history_sent_of_reporting`).

So whoever kills a run, and when and how often, one exit is sent and no line is lost
(`Run.kill_harmless`).
-/

set_option autoImplicit false

namespace ScriptWorkbench

/-- The lines that a beginning of a stream completes are the first lines of the stream. -/
theorem Lines.isPrefix_ofStream (front rest : Bytes) :
    (Bytes.splitLines front).1.map Bytes.lineText <+: Lines.ofStream (front ++ rest) := by
  rw [Lines.ofStream, Bytes.splitLines_append, List.map_append, List.append_assoc]
  exact List.prefix_append _ _

/-- What a reader has yet to do does not depend on who holds the stream. -/
structure Feed.SameWork (f g : Feed) : Prop where
  unread : g.unread = f.unread
  splitter : g.splitter = f.splitter
  outbox : g.outbox = f.outbox
  ended : g.ended = f.ended

namespace Feed.SameWork

variable {f g : Feed}

/-- Readers with the same work are reading at the same time. -/
theorem isReading_eq (h : f.SameWork g) : g.isReading = f.isReading := by
  rw [isReading, isReading, h.ended, h.outbox]

/-- Readers with the same work are done at the same time. -/
theorem isDone_eq (h : f.SameWork g) : g.isDone = f.isDone := by
  rw [isDone, isDone, h.ended, h.outbox]

end Feed.SameWork

namespace Run

/-- Two runs that have the same under way: bytes, lines and events, and the same to report. -/
structure OnItsWay (r u : Run) : Prop where
  feeds : ∀ s, (r.feed s).SameWork (u.feed s)
  waiter : u.waiter = r.waiter
  listening : u.listening = r.listening
  queue : u.queue = r.queue

/-- A step with which the waiter comes to know a code: it finds the exit status, or looking for it
fails. -/
inductive Step.Collects (r : Run) : Step → Option ExitCode → Prop
  | found (status : Status) (h : r.status = some status) : Step.Collects r .poll status.code?
  | failed : Step.Collects r .pollFail none

variable {steps more : List Step} {r r' u : Run} {x : Step} {code : Option ExitCode}

/-! ## What a kill leaves -/

/-- Once the exit status has been collected a kill does nothing. -/
theorem kill_of_collected (h : r.collected = true) (reply : SignalReply) : r.kill reply = r :=
  if_neg (by simp [killSignals, h])

/-- A signal that is not delivered does nothing. -/
theorem kill_of_ne_delivered {reply : SignalReply} (h : reply ≠ .delivered) : r.kill reply = r :=
  if_neg (by simp [h])

/-- A kill takes nothing from a run that was on its way to those who listen. -/
theorem kill_onItsWay (r : Run) (reply : SignalReply) : r.OnItsWay (r.kill reply) := by
  unfold kill
  split
  · refine ⟨?_, rfl, rfl, rfl⟩
    intro s
    cases s <;> exact ⟨rfl, rfl, rfl, rfl⟩
  · exact ⟨fun s => ⟨rfl, rfl, rfl, rfl⟩, rfl, rfl, rfl⟩

/-- A kill opens no stream. -/
theorem isOpen_of_isOpen_kill {reply : SignalReply} {s : Stream}
    (h : (r.kill reply).isOpen s = true) : r.isOpen s = true := by
  unfold kill at h
  split at h
  · cases s <;> cases h
  · exact h

/-- Whatever a reader or the waiter can do next, it can do after a kill. -/
theorem isSome_step?_kill (reply : SignalReply) (hown : x.isOwn = true)
    (hx : (r.step? x).isSome = true) : ((r.kill reply).step? x).isSome = true := by
  have hsame := kill_onItsWay r reply
  obtain ⟨r', hr'⟩ := Option.isSome_iff_exists.1 hx
  cases x with
  | read s n =>
    have hfeed := hsame.feeds s
    simp only [step?, Option.ite_none_right_eq_some] at hr'
    rw [step?, if_pos (by rw [hfeed.isReading_eq, hfeed.unread]; exact hr'.1)]
    rfl
  | readEnd s =>
    have hfeed := hsame.feeds s
    simp only [step?, Option.ite_none_right_eq_some] at hr'
    obtain ⟨⟨hreading, hunread, hclosed⟩, -⟩ := hr'
    have hshut : (r.kill reply).isOpen s = false := by
      rw [← Bool.not_eq_true]
      intro hopen
      rw [isOpen_of_isOpen_kill hopen] at hclosed
      cases hclosed
    rw [step?, if_pos ⟨hfeed.isReading_eq.trans hreading, hfeed.unread.trans hunread, by
      rw [hshut]; rfl⟩]
    rfl
  | send s =>
    have hfeed := hsame.feeds s
    simp only [step?] at hr' ⊢
    rw [hfeed.outbox]
    split at hr'
    · cases hr'
    · rfl
  | join =>
    simp only [step?, Option.ite_none_right_eq_some] at hr'
    have hout : (r.kill reply).stdout.isDone = r.stdout.isDone := (hsame.feeds .stdout).isDone_eq
    have herr : (r.kill reply).stderr.isDone = r.stderr.isDone := (hsame.feeds .stderr).isDone_eq
    rw [step?, if_pos (by rw [hsame.waiter, hout, herr]; exact hr'.1)]
    rfl
  | poll =>
    simp only [step?] at hr' ⊢
    split at hr'
    · rename_i hpolling
      rw [if_pos (hsame.waiter.trans hpolling)]
      split <;> rfl
    · cases hr'
  | report =>
    simp only [step?] at hr' ⊢
    rw [hsame.waiter]
    split at hr'
    · rename_i code hwaiter
      rfl
    · cases hr'
  | write s bytes | close s | bequeath s | release s | finish status | interrupt s | readFail s
  | pollFail | kill reply | take | hangUp => cases hown

/-- After a kill the same is to be seen of what a reader or the waiter does next. -/
theorem sent_kill (r : Run) (reply : SignalReply) (x : Step) :
    (r.kill reply).sent x = r.sent x := by
  have hsame := kill_onItsWay r reply
  cases x with
  | send s => simp only [sent, (hsame.feeds s).outbox]
  | report => simp only [sent, hsame.waiter]
  | read s n | readEnd s | join | poll | write s bytes | close s | bequeath s | release s
  | finish status | interrupt s | readFail s | pollFail | kill reply | take | hangUp => rfl

/-! ## After the exit status has been collected -/

/-- Who collects a code reports it next. -/
theorem Step.Collects.waiter_eq (h : x.Collects r code) (hx : r.step? x = some r') :
    r'.waiter = .reporting code := by
  cases h with
  | found status hstatus =>
    simp only [step?, hstatus] at hx
    split at hx <;> cases hx
    rfl
  | failed =>
    simp only [step?] at hx
    split at hx <;> cases hx
    rfl

/-- From then on no kill sends a signal. -/
theorem history_signals_of_collected (hr : r.collected = !r.waiter.isWaiting)
    (hcollected : r.collected = true) (h : r.steps? more = some r') :
    r'.collected = true ∧ r.history signals more = [] := by
  induction more generalizing r with
  | nil =>
    cases h
    exact ⟨hcollected, rfl⟩
  | cons x more ih =>
    obtain ⟨u, hu, hrest⟩ := Option.bind_eq_some_iff.1 h
    have hstep := collected_step hr hu
    have hstays : u.collected = true := by
      cases hwaiting : u.waiter.isWaiting with
      | false => rw [hstep, hwaiting]; rfl
      | true =>
        rw [isWaiting_of_step hu hwaiting, hcollected] at hr
        cases hr
    have hnone : r.signals x = [] := by
      cases x with
      | kill reply => simp [signals, killSignals, hcollected]
      | _ => rfl
    obtain ⟨hend, hquiet⟩ := ih hstep hstays hrest
    refine ⟨hend, ?_⟩
    simp only [history, Schedule.along, hu, hnone, List.nil_append]
    exact hquiet

/-- A waiter that is about to report waits, or reports what it has to. -/
theorem reporting_step_sent (hdone : ∀ s, (r.feed s).isDone = true)
    (hwaiter : r.waiter = .reporting code) (hx : r.step? x = some r') :
    r'.waiter = .reporting code ∧ r.sent x = [] ∨ r'.isOver = true ∧ r.sent x = [.exited code] := by
  have hmove := waiter_move hx
  generalize r.sent x = events at hmove ⊢
  generalize hw : r'.waiter = waiter at hmove
  cases hmove with
  | rest _ _ hquiet => exact Or.inl ⟨hw.symm.trans (hw.trans hwaiter), hquiet hdone⟩
  | join hjoining _ =>
    rw [hjoining] at hwaiter
    cases hwaiter
  | collect _ hpolling =>
    rw [hpolling] at hwaiter
    cases hwaiter
  | report last hreporting =>
    rw [hreporting, Waiter.reporting.injEq] at hwaiter
    rw [hwaiter]
    exact Or.inr ⟨isOver_iff.2 hw, rfl⟩

/-- A run that is over stays so. -/
theorem isOver_of_steps (hover : r.isOver = true) (hdone : ∀ s, (r.feed s).isDone = true)
    (h : r.steps? more = some r') : r'.isOver = true :=
  (Schedule.invariant (P := fun r : Run => r.isOver = true ∧ ∀ s, (r.feed s).isDone = true)
    (fun _ _ _ hr hx => (quiet_step hr.1 hr.2 hx).2) ⟨hover, hdone⟩ h).1

/-- The exit that is sent is the one that was collected, and nothing else is sent. -/
theorem history_sent_of_reporting (hdone : ∀ s, (r.feed s).isDone = true)
    (hwaiter : r.waiter = .reporting code) (h : r.steps? more = some r') :
    r.history sent more = if r'.isOver then [.exited code] else [] := by
  induction more generalizing r with
  | nil =>
    cases h
    have hover : r'.isOver = false := isOver_eq_false_iff.2 (by simp [hwaiter])
    rw [hover]
    rfl
  | cons x more ih =>
    obtain ⟨u, hu, hrest⟩ := Option.bind_eq_some_iff.1 h
    have hdone' : ∀ s, (u.feed s).isDone = true := fun s => ((feed_move hu s).isDone (hdone s)).1
    simp only [history, Schedule.along, hu]
    rcases reporting_step_sent hdone hwaiter hu with ⟨hwaiter', hsent⟩ | ⟨hover, hsent⟩
    · rw [hsent]
      exact ih hdone' hwaiter' hrest
    · rw [hsent, isOver_of_steps hover hdone' hrest]
      exact congrArg _ (quiet_after_exit hover hdone' hrest)

/-! ## After a kill that is delivered -/

/-- However a doomed run goes on, readers and waiter can take only so many steps. -/
theorem Doomed.countP_isOwn_le {verdict : Option ExitCode → Prop} (h : r.Doomed verdict)
    (hpoll : .pollFail ∈ more → verdict none) (hmore : r.steps? more = some r') :
    more.countP Step.isOwn + r'.load ≤ r.load := by
  induction more generalizing r with
  | nil =>
    cases hmore
    simp
  | cons x more ih =>
    obtain ⟨u, hu, hrest⟩ := Option.bind_eq_some_iff.1 hmore
    have hfirst : x = .pollFail → verdict none := by
      rintro rfl
      exact hpoll List.mem_cons_self
    have hlater := ih (h.step hfirst hu).1 (fun hmem => hpoll (List.mem_cons_of_mem x hmem)) hrest
    rw [List.countP_cons]
    split
    · rename_i hown
      have hlt := h.load_lt hu hown
      omega
    · have hle := h.load_le hu
      omega

/-- They stop only when the run is over. -/
theorem Doomed.isOver_or_exists_isOwn {verdict : Option ExitCode → Prop} (h : r.Doomed verdict) :
    r.isOver = true ∨ ∃ x : Step, x.isOwn = true ∧ (r.step? x).isSome = true := by
  cases hover : r.isOver with
  | true => exact Or.inl rfl
  | false => exact Or.inr (exists_isOwn_of_not_isOver h.isSome_status h.closed hover)

/-! ## Whenever a run is killed -/

/-- The number of exits in a row of events. -/
def exits (events : List Event) : Nat :=
  events.countP fun e => !e.isLine

/-- Lines are no exits. -/
theorem exits_of_lines {events : List Event} (h : ∀ e ∈ events, e.isLine = true) :
    exits events = 0 := by
  rw [exits, List.countP_eq_zero]
  intro e he
  simp [h e he]

/-- One exit is sent, which ends the run. -/
theorem exits_sent (h : ({} : Run).steps? steps = some r) :
    exits (({} : Run).history sent steps) = if r.isOver then 1 else 0 := by
  have horder := orderly h
  cases hover : r.isOver with
  | false => exact exits_of_lines (horder.lines hover)
  | true =>
    obtain ⟨lines, code, hsent, hlines⟩ := horder.exit hover
    have hnone := exits_of_lines hlines
    rw [hsent, exits, List.countP_append]
    rw [exits] at hnone
    rw [hnone]
    rfl

/-- Killing a run is safe at any time.  Once the waiter has found the exit status, or looking for it
has failed, no kill sends a signal, every kill succeeds and leaves the run as it is, and the exit
that is sent carries what was collected then; before, every kill sends its signal.  At any time, a
run has sent one exit if it is over and none if it is not.  A kill that is not delivered does
nothing.  After any kill readers and waiter can do whatever they could do before, and send the same
then, and after one that is delivered they can only do so much and stop only when the run is over.
No kill takes away bytes that were not read, lines that were not sent or events that were not taken;
so if the run is over and no read of a stream has failed, all lines that were written to the stream
have been sent, those that were complete before the kill first, and everything sent is received by
who listens. -/
theorem kill_harmless (h : ({} : Run).steps? steps = some r) :
    (∀ x code v, x.Collects r code → r.step? x = some v →
      ∀ more r', v.steps? more = some r' →
        v.history signals more = [] ∧
        (∀ reply, r'.signals (.kill reply) = [] ∧ r'.killSucceeds reply = true ∧
          r'.kill reply = r') ∧
        v.history sent more = if r'.isOver then [.exited code] else []) ∧
    (r.waiter.isWaiting = true → ∀ reply, r.signals (.kill reply) = [reply]) ∧
    exits (({} : Run).history sent steps) = (if r.isOver then 1 else 0) ∧
    (∀ reply, reply ≠ .delivered → r.kill reply = r) ∧
    (∀ (reply : SignalReply) (x : Step), x.isOwn = true → (r.step? x).isSome = true →
      ((r.kill reply).step? x).isSome = true ∧ (r.kill reply).sent x = r.sent x) ∧
    (∀ more r', (r.kill .delivered).steps? more = some r' →
      more.countP Step.isOwn ≤ (r.kill .delivered).load ∧
      (r'.isOver = true ∨ ∃ x : Step, x.isOwn = true ∧ (r'.step? x).isSome = true)) ∧
    (∀ reply, r.OnItsWay (r.kill reply)) ∧
    (∀ reply more r', (r.kill reply).steps? more = some r' →
      let whole := steps ++ .kill reply :: more
      exits (({} : Run).history sent whole) = (if r'.isOver then 1 else 0) ∧
      (r'.listening = true →
        ({} : Run).history taken whole ++ r'.queue = ({} : Run).history sent whole) ∧
      ∀ s, r'.isOver = true → .readFail s ∉ whole →
        (({} : Run).history sent whole).filterMap (Event.lineOn? s) =
          Lines.ofStream (({} : Run).history (written s) whole) ∧
        (Bytes.splitLines (({} : Run).history (written s) steps)).1.map Bytes.lineText <+:
          (({} : Run).history sent whole).filterMap (Event.lineOn? s)) := by
  have hdoomed : (r.kill .delivered).Doomed fun _ => True := doomed_kill h trivial fun _ => trivial
  refine ⟨?_, ?_, exits_sent h, fun reply => kill_of_ne_delivered,
    fun reply x hown hx => ⟨isSome_step?_kill reply hown hx, sent_kill r reply x⟩, ?_,
    kill_onItsWay r, ?_⟩
  · intro x code v hcollects hx more r' hmore
    have hv : ({} : Run).steps? (steps ++ [x]) = some v :=
      Schedule.after?_trans h (by simp [Schedule.after?, hx])
    have hwaiter := hcollects.waiter_eq hx
    have hcollected : v.collected = true := by
      rw [collected_eq hv, hwaiter]
      rfl
    have hdone : ∀ s, (v.feed s).isDone = true := (orderly hv).joined (by simp [hwaiter])
    obtain ⟨hend, hsignals⟩ := history_signals_of_collected (collected_eq hv) hcollected hmore
    refine ⟨hsignals, ?_, history_sent_of_reporting hdone hwaiter hmore⟩
    intro reply
    exact ⟨by simp [signals, killSignals, hend], by simp [killSucceeds, killSignals, hend],
      kill_of_collected hend reply⟩
  · intro hwaiting reply
    have hcollected := collected_eq h
    rw [hwaiting] at hcollected
    simp [signals, killSignals, hcollected]
  · intro more r' hmore
    have hload := hdoomed.countP_isOwn_le (fun _ => trivial) hmore
    exact ⟨by omega, (hdoomed.steps (fun _ => trivial) hmore).1.isOver_or_exists_isOwn⟩
  · intro reply more r' hmore whole
    have hwhole : ({} : Run).steps? whole = some r' := Schedule.after?_trans h hmore
    refine ⟨exits_sent hwhole, taken_append_queue hwhole, ?_⟩
    intro s hover hread
    have hlines : (({} : Run).history sent whole).filterMap (Event.lineOn? s) =
        Lines.ofStream (({} : Run).history (written s) whole) := by
      obtain ⟨lines, code, hsent, -, hon⟩ := isReport_sent hwhole hover
      rw [← consumed_eq_written hwhole hover hread, hsent, List.filterMap_append, hon]
      exact List.append_nil _
    have hwritten : ({} : Run).history (written s) whole = ({} : Run).history (written s) steps ++
        r.history (written s) (.kill reply :: more) := Schedule.along_append h _
    refine ⟨hlines, ?_⟩
    rw [hlines, hwritten]
    exact Lines.isPrefix_ofStream _ _

/-- A run that is killed with lines unread, and twice more while its readers and its waiter finish.
-/
def killedOften : List Step :=
  [.write .stdout [97, 10, 98], .kill .delivered, .kill .gone, .read .stdout 3, .send .stdout,
    .readEnd .stdout, .send .stdout, .readEnd .stderr, .join, .kill .refused]

/-- Killed again around its report, that run sends no further signal and the exit that was found. -/
theorem kill_harmless_often :
    let around : List Step := [.kill .delivered, .report, .kill .refused]
    ∃ r v r', ({} : Run).steps? killedOften = some r ∧ r.step? .poll = some v ∧
      v.steps? around = some r' ∧
      ({} : Run).history signals killedOften = [.delivered, .gone, .refused] ∧
      v.history signals around = [] ∧ r'.kill .delivered = r' ∧
      v.history sent around = [.exited none] := by
  intro around
  have hsome : (({} : Run).steps? killedOften).isSome = true := by decide
  obtain ⟨r, hr⟩ := Option.isSome_iff_exists.1 hsome
  have hstatus : r.status = some .killed :=
    Schedule.eq_of_map_after? (f := fun r : Run => r.status) hr (by decide)
  have hpoll : (r.step? .poll).isSome = true :=
    Schedule.eq_of_map_after? (f := fun r : Run => (r.step? .poll).isSome) hr (by decide)
  obtain ⟨v, hv⟩ := Option.isSome_iff_exists.1 hpoll
  have hfound : ({} : Run).steps? (killedOften ++ [.poll]) = some v :=
    Schedule.after?_trans hr (by simp [Schedule.after?, hv])
  have haround : (v.steps? around).isSome = true :=
    Schedule.eq_of_map_after? (f := fun v : Run => (v.steps? around).isSome) hfound (by decide)
  obtain ⟨r', hr'⟩ := Option.isSome_iff_exists.1 haround
  have hover : r'.isOver = true :=
    Schedule.eq_of_map_after? (f := isOver) (Schedule.after?_trans hfound hr') (by decide)
  obtain ⟨hsignals, hkill, hsent⟩ :=
    (kill_harmless hr).1 .poll _ v (.found .killed hstatus) hv around r' hr'
  rw [hover] at hsent
  exact ⟨r, v, r', hr, hv, hr', by decide, hsignals, (hkill .delivered).2.2, hsent⟩

end Run

end ScriptWorkbench
