import ScriptWorkbench.Proofs.Run.Order

/-!
# What a run reports

Whoever listens to a run receives the lines of both streams, each stream in its own order, and then
once how the interpreter ended; nothing comes after that (`Run.report_complete`).  This holds of
every schedule: however the streams are cut into chunks, and whenever the readers, the waiter and
those who kill the run act.

The report does come.  Once the interpreter has ended and both streams are closed, every step of a
reader or of the waiter uses up some work (`Run.work_lt_of_isOwn`), and one of them can act as long
as the run is not over (`Run.exists_isOwn_of_not_isOver`).
-/

set_option autoImplicit false

namespace ScriptWorkbench

/-- All that a run has to tell when its readers took these bytes: the lines of both streams,
interleaved in some way, and then the exit. -/
def Event.IsReport (taken : Stream → Bytes) (events : List Event) : Prop :=
  ∃ lines code, events = lines ++ [.exited code] ∧ (∀ e ∈ lines, e.isLine = true) ∧
    ∀ s, lines.filterMap (Event.lineOn? s) = Lines.ofStream (taken s)

namespace Run

/-- Whether a step is one that readers and waiter take by themselves. -/
def Step.isOwn : Step → Bool
  | .read _ _ | .readEnd _ | .send _ | .join | .poll | .report => true
  | _ => false

/-! ## Readers and waiter come to the end -/

/-- A stream that no process holds is never opened again. -/
theorem isOpen_of_move {f f' : Feed} {w t : Bytes} {l : List Text} {b : Bool}
    (hmove : f.Move w t l b f') (hclosed : f.isOpen = false) : f'.isOpen = false := by
  cases hmove with
  | rest => exact hclosed
  | write bytes hopen =>
    rw [hopen] at hclosed
    simp at hclosed
  | handle held lent hopen =>
    cases hheld : (held || lent) with
    | false => exact hheld
    | true =>
      rw [hopen hheld] at hclosed
      simp at hclosed
  | read n hreading => exact hclosed
  | finish _ hreading hend => exact hclosed
  | send line lines hout => exact hclosed

/-- How an interpreter ended does not change any more. -/
theorem status_step {r r' : Run} {x : Step} {status : Status} (hx : r.step? x = some r')
    (hstatus : r.status = some status) : r'.status = some status := by
  have hsend : ∀ (r : Run) (e : Event), (r.send e).status = r.status := by
    intro r e
    unfold send
    split <;> rfl
  have hset : ∀ (r : Run) (s : Stream) (f : Feed), (r.setFeed s f).status = r.status := by
    intro r s f
    cases s <;> rfl
  cases x with
  | finish last => simp [step?, hstatus] at hx
  | kill reply =>
    simp only [step?, Option.some.injEq] at hx
    subst hx
    unfold kill
    split
    · simp [hstatus]
    · exact hstatus
  | hangUp =>
    simp only [step?, Option.some.injEq] at hx
    subst hx
    exact hstatus
  | poll =>
    simp only [step?] at hx
    split at hx
    · split at hx <;> cases hx <;> exact hstatus
    · cases hx
  | write t bytes | close t | bequeath t | release t | read t n | interrupt t | readEnd t
  | readFail t | send t | join | pollFail | report | take =>
    simp only [step?] at hx
    split at hx <;> cases hx
    simp [hsend, hset, hstatus]

/-- An interpreter that has ended stays so. -/
theorem isSome_status_step {r r' : Run} {x : Step} (hx : r.step? x = some r')
    (hstatus : r.status.isSome = true) : r'.status.isSome = true := by
  obtain ⟨status, hsome⟩ := Option.isSome_iff_exists.1 hstatus
  rw [status_step hx hsome]
  rfl

/-- Each step of a reader or of the waiter uses up some work, if the waiter does not look for an
exit status that is not there. -/
theorem work_lt_of_isOwn {r r' : Run} {x : Step} (hx : r.step? x = some r')
    (hown : x.isOwn = true) (hstatus : r.waiter = .polling → r.status.isSome = true) :
    r'.work < r.work := by
  cases x with
  | read s n =>
    simp only [step?] at hx
    split at hx <;> cases hx
    rename_i hread
    obtain ⟨hreading, hpos, hlen, -⟩ := hread
    exact work_setFeed_lt (Feed.work_read_lt hpos hlen (Feed.isReading_iff.1 hreading).2)
  | readEnd s =>
    simp only [step?] at hx
    split at hx <;> cases hx
    rename_i hend
    obtain ⟨hended, hout⟩ := Feed.isReading_iff.1 hend.1
    exact work_setFeed_lt (Feed.work_finish_lt hended hout)
  | send s =>
    simp only [step?] at hx
    split at hx <;> cases hx
    rename_i l ls hout
    rw [work_send]
    exact work_setFeed_lt (Feed.work_send_lt hout)
  | join =>
    simp only [step?] at hx
    split at hx <;> cases hx
    rename_i hjoin
    simp [work, hjoin.1, Waiter.work]
  | poll =>
    simp only [step?] at hx
    split at hx
    · rename_i hwaiter
      split at hx <;> cases hx
      · rename_i hnone
        have hsome := hstatus hwaiter
        rw [hnone] at hsome
        cases hsome
      · simp [work, hwaiter, Waiter.work]
    · cases hx
  | report =>
    simp only [step?] at hx
    split at hx <;> cases hx
    rename_i code hwaiter
    rw [work_send]
    simp [work, hwaiter, Waiter.work]
  | write s bytes | close s | bequeath s | release s | finish status | interrupt s | readFail s
  | pollFail | kill reply | take | hangUp =>
    simp [Step.isOwn] at hown

/-- A reader of a closed stream that is not done can act. -/
theorem exists_isOwn_of_not_isDone {r : Run} {s : Stream} (hclosed : r.isOpen s = false)
    (hdone : (r.feed s).isDone = false) :
    ∃ x : Step, x.isOwn = true ∧ (r.step? x).isSome = true := by
  cases hout : (r.feed s).outbox with
  | cons l ls =>
    refine ⟨.send s, rfl, ?_⟩
    simp only [step?, hout]
    rfl
  | nil =>
    have hended : (r.feed s).ended = false := by
      simpa [Feed.isDone, hout] using hdone
    have hreading : (r.feed s).isReading = true := Feed.isReading_iff.2 ⟨hended, hout⟩
    cases hunread : (r.feed s).unread with
    | nil =>
      refine ⟨.readEnd s, rfl, ?_⟩
      simp [step?, hreading, hunread, hclosed]
    | cons b bs =>
      refine ⟨.read s 1, rfl, ?_⟩
      simp [step?, hreading, hunread, Feed.chunkLimit]

/-- As long as a run is not over, a reader or the waiter can act, if no reader waits for more bytes
and the waiter does not wait for the interpreter. -/
theorem exists_isOwn_of_not_isOver {r : Run}
    (hstatus : r.waiter = .polling → r.status.isSome = true)
    (hclosed : ∀ s, r.isOpen s = false ∨ (r.feed s).isDone = true) (hover : r.isOver = false) :
    ∃ x : Step, x.isOwn = true ∧ (r.step? x).isSome = true := by
  have hreader : ∀ s, (r.feed s).isDone = false →
      ∃ x : Step, x.isOwn = true ∧ (r.step? x).isSome = true := by
    intro s hdone
    apply exists_isOwn_of_not_isDone _ hdone
    exact (hclosed s).resolve_right (by simp [hdone])
  cases hout : r.stdout.isDone with
  | false => exact hreader .stdout hout
  | true =>
    cases herr : r.stderr.isDone with
    | false => exact hreader .stderr herr
    | true =>
      cases hwaiter : r.waiter with
      | joining =>
        refine ⟨.join, rfl, ?_⟩
        simp [step?, hwaiter, hout, herr]
      | polling =>
        obtain ⟨status, hsome⟩ := Option.isSome_iff_exists.1 (hstatus hwaiter)
        refine ⟨.poll, rfl, ?_⟩
        simp [step?, hwaiter, hsome]
      | reporting code =>
        refine ⟨.report, rfl, ?_⟩
        simp [step?, hwaiter]
      | done =>
        rw [isOver_eq_false_iff] at hover
        exact absurd hwaiter hover

/-- Readers and waiter can take no more steps than there is work, and they stop only when the run
is over. -/
theorem isOwn_steps {own : List Step} {r r' : Run} (hstatus : r.status.isSome = true)
    (hclosed : ∀ s, r.isOpen s = false) (hown : ∀ x ∈ own, x.isOwn = true)
    (h : r.steps? own = some r') :
    own.length + r'.work ≤ r.work ∧
      (r'.isOver = true ∨ ∃ x : Step, x.isOwn = true ∧ (r'.step? x).isSome = true) := by
  induction own generalizing r with
  | nil =>
    cases h
    refine ⟨by simp, ?_⟩
    cases hover : r'.isOver with
    | true => exact Or.inl rfl
    | false =>
      exact Or.inr
        (exists_isOwn_of_not_isOver (fun _ => hstatus) (fun s => Or.inl (hclosed s)) hover)
  | cons x own ih =>
    obtain ⟨u, hu, hrest⟩ := Option.bind_eq_some_iff.1 h
    have hlt := work_lt_of_isOwn hu (hown x List.mem_cons_self) fun _ => hstatus
    have hclosed' : ∀ s, u.isOpen s = false := fun s => isOpen_of_move (feed_move hu s) (hclosed s)
    obtain ⟨hlen, hstuck⟩ := ih (isSome_status_step hu hstatus) hclosed'
      (fun y hy => hown y (List.mem_cons_of_mem x hy)) hrest
    refine ⟨?_, hstuck⟩
    rw [List.length_cons]
    omega

/-! ## The report -/

/-- A stream of which no read failed has not failed. -/
theorem any_failed_eq_false {s : Stream} {steps : List Step} (h : .readFail s ∉ steps) :
    steps.any (failed s) = false := by
  rw [List.any_eq_false]
  intro x hx hfailed
  have hread : x = .readFail s := by simpa [failed] using hfailed
  exact h (hread ▸ hx)

/-- What has been sent on a stream is a beginning of the lines of the bytes that were taken. -/
theorem lines_isPrefix {written taken : Bytes} {sent : List Text} {failed : Bool} {f : Feed}
    (h : f.Account written taken sent failed) : sent <+: Lines.ofStream taken := by
  have hbox : sent <+: sent ++ f.outbox := List.prefix_append sent f.outbox
  cases hended : f.ended with
  | true =>
    rw [h.done hended] at hbox
    exact hbox
  | false =>
    rw [(h.reading hended).1] at hbox
    exact hbox.trans (List.prefix_append _ _)

/-- The lines of both streams have been sent once the run is over. -/
theorem isReport_sent {steps : List Step} {r : Run} (h : ({} : Run).steps? steps = some r)
    (hover : r.isOver = true) :
    Event.IsReport (fun s => ({} : Run).history (consumed s) steps)
      (({} : Run).history sent steps) := by
  have horder := orderly h
  obtain ⟨lines, code, hsent, hlines⟩ := horder.exit hover
  refine ⟨lines, code, hsent, hlines, ?_⟩
  intro s
  have hjoined : r.waiter ≠ .joining := by
    rw [isOver_iff.1 hover]
    simp
  obtain ⟨hended, hout⟩ := Feed.isDone_iff.1 (horder.joined hjoined s)
  have hdone := (feed_account h s).done hended
  have hexit : [Event.exited code].filterMap (Event.lineOn? s) = [] := rfl
  rw [hout, List.append_nil, hsent, List.filterMap_append, hexit, List.append_nil] at hdone
  exact hdone

/-- Whoever listens is told of the end once everything has been taken and the run is over. -/
theorem receive_eq_over_iff {r : Run} (hl : r.listening = true) :
    r.receive = .over ↔ r.queue = [] ∧ r.isOver = true := by
  unfold receive
  rw [hl]
  cases r.queue with
  | nil => cases r.isOver <;> simp
  | cons e es => simp

/-- Whoever listens to a run receives the lines of both streams, each stream in its own order and
each line once, then the exit, and nothing after it.  The lines are those of the bytes that the
readers took; a reader takes what was written unless one of its reads fails.  Asking for an event
is answered with the end exactly when the whole report has been received.  Once the interpreter has
ended and both streams are closed, readers and waiter stop only when the report is complete.  The
lines of a stream are what stands before its line feeds and after the last one, each decoded without
one carriage return at its end. -/
theorem report_complete {steps : List Step} {r : Run} (h : ({} : Run).steps? steps = some r)
    (hl : r.listening = true) :
    let written := fun s => ({} : Run).history (written s) steps
    let drained := fun s => ({} : Run).history (consumed s) steps
    let received := ({} : Run).history taken steps
    (∀ s, drained s <+: written s) ∧
    (r.isOver = true → ∀ s, .readFail s ∉ steps → drained s = written s) ∧
    (∀ s, (received ++ r.queue).filterMap (Event.lineOn? s) <+: Lines.ofStream (drained s)) ∧
    (r.isOver = false → ∀ e ∈ received ++ r.queue, e.isLine = true) ∧
    (r.isOver = true → Event.IsReport drained (received ++ r.queue)) ∧
    (r.receive = .over ↔ Event.IsReport drained received) ∧
    (r.isOver = true → ∀ more r', r.steps? more = some r' → r.history sent more = []) ∧
    (r.status.isSome = true → (∀ s, r.isOpen s = false) →
      ∀ own r', (∀ x ∈ own, x.isOwn = true) → r.steps? own = some r' →
        own.length ≤ r.work ∧
          (r'.isOver = true ∨ ∃ x : Step, x.isOwn = true ∧ (r'.step? x).isSome = true)) ∧
    (∀ s, ∃ lines rest, Bytes.IsCut (drained s) lines rest ∧
      Lines.ofStream (drained s) =
        (lines ++ if rest = [] then [] else [rest]).map fun line =>
          Utf8.decodeLossy (if line.getLast? = some 13 then line.dropLast else line)) := by
  intro written drained received
  have horder := orderly h
  have hqueue : received ++ r.queue = ({} : Run).history sent steps := taken_append_queue h hl
  have hdone : r.isOver = true → ∀ s, (r.feed s).isDone = true := by
    intro hover
    apply horder.joined
    rw [isOver_iff.1 hover]
    simp
  refine ⟨?_, ?_, ?_, ?_, ?_, ?_, ?_, ?_, ?_⟩
  · intro s
    exact ⟨(r.feed s).unread, (feed_account h s).bytes⟩
  · intro hover s hread
    have haccount := feed_account h s
    obtain ⟨hended, -⟩ := Feed.isDone_iff.1 (hdone hover s)
    have hunread := (haccount.dry hended (any_failed_eq_false hread)).1
    have hbytes := haccount.bytes
    rw [hunread, List.append_nil] at hbytes
    exact hbytes
  · intro s
    rw [hqueue]
    exact lines_isPrefix (feed_account h s)
  · intro hover
    rw [hqueue]
    exact horder.lines hover
  · intro hover
    rw [hqueue]
    exact isReport_sent h hover
  · rw [receive_eq_over_iff hl]
    constructor
    · rintro ⟨hnil, hover⟩
      rw [← List.append_nil received, ← hnil, hqueue]
      exact isReport_sent h hover
    · rintro ⟨lines, code, hreceived, -, -⟩
      have hexit : .exited code ∈ received := by
        rw [hreceived]
        exact List.mem_append_right _ List.mem_cons_self
      exact queue_eq_nil_of_exited_taken h hl hexit
  · intro hover more r' hmore
    exact quiet_after_exit hover (hdone hover) hmore
  · intro hstatus hclosed own r' hown hsteps
    obtain ⟨hwork, hstuck⟩ := isOwn_steps hstatus hclosed hown hsteps
    exact ⟨by omega, hstuck⟩
  · intro s
    have hcut := Bytes.isCut_splitLines (drained s)
    exact ⟨_, _, hcut, Bytes.ofStream_of_isCut hcut⟩

/-- A run that is killed while both streams have bytes that were not read, one of them with a line
feed cut off from its carriage return. -/
def killedMidLine : List Step :=
  [.write .stdout [97, 13, 10, 98], .read .stdout 2, .interrupt .stdout, .write .stderr [120, 10],
    .kill .delivered, .read .stdout 2, .send .stdout, .readEnd .stdout, .read .stderr 2,
    .send .stderr, .send .stdout, .readEnd .stderr, .join, .poll, .report, .take, .take, .take,
    .take]

/-- The lines that were written before the kill all come, the unterminated one too, and the run ends
without a code. -/
theorem report_complete_killed_mid_line :
    ∃ r, ({} : Run).steps? killedMidLine = some r ∧ r.listening = true ∧ r.receive = .over ∧
      ({} : Run).history taken killedMidLine =
        [.line .stdout ['a'], .line .stderr ['x'], .line .stdout ['b'], .exited none] ∧
      Event.IsReport (fun s => ({} : Run).history (written s) killedMidLine)
        (({} : Run).history taken killedMidLine) := by
  have hsome : (({} : Run).steps? killedMidLine).isSome = true := by decide
  obtain ⟨r, hr⟩ := Option.isSome_iff_exists.1 hsome
  have hl : r.listening = true :=
    Schedule.eq_of_map_after? (f := fun r : Run => r.listening) hr (by decide)
  have hover : r.receive = .over := Schedule.eq_of_map_after? (f := receive) hr (by decide)
  obtain ⟨-, hwhole, -, -, -, hreport, -⟩ := report_complete hr hl
  have hdone : r.isOver = true := Schedule.eq_of_map_after? (f := isOver) hr (by decide)
  refine ⟨r, hr, hl, hover, by decide +kernel, ?_⟩
  have hwritten : (fun s => ({} : Run).history (consumed s) killedMidLine) =
      fun s => ({} : Run).history (written s) killedMidLine := by
    funext s
    exact hwhole hdone s (by cases s <;> decide)
  rw [← hwritten]
  exact hreport.1 hover

end Run

end ScriptWorkbench
