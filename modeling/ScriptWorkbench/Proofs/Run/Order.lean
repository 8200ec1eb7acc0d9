import ScriptWorkbench.Proofs.Run.Feed

/-!
# The order of events

Only the waiter of a run sends an exit, and it does so when both readers are done, which they then
remain (`Run.waiter_move`).  So the events of a run are lines as long as the run is not over, and
lines and then an exit once it is (`Run.orderly`), and nothing comes after it
(`Run.quiet_after_exit`).  They are taken in the order in which they were sent
(`Run.taken_append_queue`).
-/

set_option autoImplicit false

namespace ScriptWorkbench

/-- Whether an event is a line and not an exit. -/
def Event.isLine : Event → Bool
  | .line _ _ => true
  | .exited _ => false

/-- No line is an exit. -/
theorem Event.exited_notMem {events : List Event} (h : ∀ e ∈ events, e.isLine = true)
    (code : Option ExitCode) : .exited code ∉ events := by
  intro hmem
  have hline : (Event.exited code).isLine = true := h _ hmem
  cases hline

namespace Run

/-! ## The waiter -/

/-- What a step can do to the waiter of a run.  The first index says which events are sent. -/
inductive WaiterMove (r : Run) : List Event → Waiter → Prop
  | rest (events : List Event) (hlines : ∀ e ∈ events, e.isLine = true)
      (hquiet : (∀ s, (r.feed s).isDone = true) → events = []) :
      r.WaiterMove events r.waiter
  | join (hwaiter : r.waiter = .joining) (hdone : ∀ s, (r.feed s).isDone = true) :
      r.WaiterMove [] .polling
  | collect (code : Option ExitCode) (hwaiter : r.waiter = .polling) :
      r.WaiterMove [] (.reporting code)
  | report (code : Option ExitCode) (hwaiter : r.waiter = .reporting code) :
      r.WaiterMove [.exited code] .done

/-- Replacing a stream leaves the waiter alone. -/
@[simp]
theorem waiter_setFeed (r : Run) (s : Stream) (f : Feed) : (r.setFeed s f).waiter = r.waiter := by
  cases s <;> rfl

/-- Sending an event leaves the waiter alone. -/
@[simp]
theorem waiter_send (r : Run) (e : Event) : (r.send e).waiter = r.waiter := by
  unfold send
  split <;> rfl

/-- A step that sends nothing leaves the waiter alone or moves it on. -/
theorem waiter_rest {r r' : Run} {x : Step} (hsent : r.sent x = []) (hw : r'.waiter = r.waiter) :
    r.WaiterMove (r.sent x) r'.waiter := by
  rw [hsent, hw]
  exact .rest [] (by simp) (fun _ => rfl)

/-- What a step of a run does to its waiter. -/
theorem waiter_move {r r' : Run} {x : Step} (h : r.step? x = some r') :
    r.WaiterMove (r.sent x) r'.waiter := by
  cases x with
  | send t =>
    simp only [step?] at h
    split at h <;> cases h
    rename_i l ls hout
    have hsent : r.sent (.send t) = [.line t l] := by simp [sent, hout]
    rw [hsent, waiter_send, waiter_setFeed]
    refine .rest _ (by simp [Event.isLine]) ?_
    intro hdone
    have := (Feed.isDone_iff.1 (hdone t)).2
    rw [hout] at this
    simp at this
  | join =>
    simp only [step?] at h
    split at h <;> cases h
    rename_i hjoin
    refine .join hjoin.1 ?_
    intro s
    cases s
    · exact hjoin.2.1
    · exact hjoin.2.2
  | poll =>
    simp only [step?] at h
    split at h
    · rename_i hwaiter
      split at h <;> cases h
      · exact waiter_rest rfl rfl
      · exact .collect _ hwaiter
    · cases h
  | pollFail =>
    simp only [step?] at h
    split at h <;> cases h
    rename_i hwaiter
    exact .collect none hwaiter
  | report =>
    simp only [step?] at h
    split at h <;> cases h
    rename_i code hwaiter
    have hsent : r.sent .report = [.exited code] := by simp [sent, hwaiter]
    rw [hsent, waiter_send]
    exact .report code hwaiter
  | kill reply =>
    simp only [step?, Option.some.injEq] at h
    subst h
    refine waiter_rest rfl ?_
    unfold kill
    split <;> rfl
  | hangUp =>
    simp only [step?, Option.some.injEq] at h
    subst h
    exact waiter_rest rfl rfl
  | write t bytes | close t | bequeath t | release t | finish status | read t n | interrupt t
  | readEnd t | readFail t | take =>
    simp only [step?] at h
    split at h <;> cases h
    exact waiter_rest rfl (by simp [letGo])

/-- The waiter waits for both readers, and the exit is the last event that is sent. -/
structure Orderly (sent : List Event) (r : Run) : Prop where
  joined : r.waiter ≠ .joining → ∀ s, (r.feed s).isDone = true
  lines : r.isOver = false → ∀ e ∈ sent, e.isLine = true
  exit : r.isOver = true →
    ∃ lines code, sent = lines ++ [.exited code] ∧ ∀ e ∈ lines, e.isLine = true

/-- A run is over once its waiter is done. -/
theorem isOver_iff {r : Run} : r.isOver = true ↔ r.waiter = .done := by
  simp [isOver]

/-- A run is not over as long as its waiter is not done. -/
theorem isOver_eq_false_iff {r : Run} : r.isOver = false ↔ r.waiter ≠ .done := by
  simp [isOver]

/-- Every step keeps the order of events. -/
theorem Orderly.step {events : List Event} {r r' : Run} {x : Step} (h : Orderly events r)
    (hx : r.step? x = some r') : Orderly (events ++ r.sent x) r' := by
  have hfeeds : (∀ s, (r.feed s).isDone = true) → ∀ s, (r'.feed s).isDone = true :=
    fun hdone s => ((feed_move hx s).isDone (hdone s)).1
  have hmove := waiter_move hx
  generalize hsent : r.sent x = sent at hmove ⊢
  generalize hw : r'.waiter = waiter at hmove
  cases hmove with
  | rest _ hlines hquiet =>
    refine ⟨?_, ?_, ?_⟩
    · intro hjoining
      exact hfeeds (h.joined (hw ▸ hjoining))
    · intro hover e he
      rw [isOver_eq_false_iff, hw, ← isOver_eq_false_iff] at hover
      rcases List.mem_append.1 he with he | he
      · exact h.lines hover e he
      · exact hlines e he
    · intro hover
      rw [isOver_iff, hw] at hover
      -- both readers were done before the exit was sent, so nothing more can come
      have hdone := h.joined (by rw [hover]; simp)
      rw [hquiet hdone, List.append_nil]
      exact h.exit (isOver_iff.2 hover)
  | join hwaiter hdone =>
    refine ⟨fun _ => hfeeds hdone, ?_, ?_⟩
    · intro _
      rw [List.append_nil]
      exact h.lines (by rw [isOver_eq_false_iff, hwaiter]; simp)
    · intro hover
      rw [isOver_iff, hw] at hover
      simp at hover
  | collect code hwaiter =>
    refine ⟨fun _ => hfeeds (h.joined (by rw [hwaiter]; simp)), ?_, ?_⟩
    · intro _
      rw [List.append_nil]
      exact h.lines (by rw [isOver_eq_false_iff, hwaiter]; simp)
    · intro hover
      rw [isOver_iff, hw] at hover
      simp at hover
  | report code hwaiter =>
    refine ⟨fun _ => hfeeds (h.joined (by rw [hwaiter]; simp)), ?_, ?_⟩
    · intro hover
      rw [isOver_eq_false_iff, hw] at hover
      simp at hover
    · intro _
      exact ⟨events, code, rfl, h.lines (by rw [isOver_eq_false_iff, hwaiter]; simp)⟩

/-- Every run is orderly: first the lines, and then at most one exit. -/
theorem orderly {steps : List Step} {r : Run} (h : ({} : Run).steps? steps = some r) :
    Orderly (({} : Run).history sent steps) r := by
  refine Schedule.concat_induction (P := fun steps r => Orderly (({} : Run).history sent steps) r)
    ?_ ?_ h
  · refine ⟨?_, ?_, ?_⟩
    · intro hjoining
      simp at hjoining
    · intro _ e he
      simp [history, Schedule.along] at he
    · intro hover
      simp [isOver] at hover
  · intro steps t x u ht horder hx
    rw [history, Schedule.along_concat ht hx]
    exact horder.step hx

/-! ## The queue -/

/-- Replacing a stream leaves the listener and its queue alone. -/
theorem listening_setFeed (r : Run) (s : Stream) (f : Feed) :
    (r.setFeed s f).listening = r.listening ∧ (r.setFeed s f).queue = r.queue := by
  cases s <;> exact ⟨rfl, rfl⟩

/-- An event that is sent comes to the end of the queue, if anyone listens. -/
theorem queue_send (r : Run) (e : Event) :
    (r.send e).listening = r.listening ∧
      (r.send e).queue = r.queue ++ if r.listening then [e] else [] := by
  unfold send
  cases hl : r.listening with
  | true => exact ⟨rfl, rfl⟩
  | false => exact ⟨hl, (List.append_nil r.queue).symm⟩

/-- What a step does to whoever listens.  Hanging up leaves nothing; every other step adds what it
sends to the end of the queue, if anybody listens, and takes from the front what it takes. -/
theorem channel_step {r r' : Run} {x : Step} (hx : r.step? x = some r') :
    x = .hangUp ∧ r'.listening = false ∧ r'.queue = [] ∨
    x ≠ .hangUp ∧ r'.listening = r.listening ∧
      (r.queue ++ if r.listening then r.sent x else []) = r.taken x ++ r'.queue := by
  have hnothing : (r.queue ++ if r.listening then [] else []) = [] ++ r.queue := by simp
  cases x with
  | hangUp =>
    simp only [step?, Option.some.injEq] at hx
    subst hx
    exact Or.inl ⟨rfl, rfl, rfl⟩
  | send t =>
    simp only [step?] at hx
    split at hx <;> cases hx
    rename_i l ls hout
    obtain ⟨hl, hqueue⟩ := queue_send (r.setFeed t { r.feed t with outbox := ls }) (.line t l)
    rw [(listening_setFeed ..).1] at hl hqueue
    rw [(listening_setFeed ..).2] at hqueue
    refine Or.inr ⟨by simp, hl, ?_⟩
    rw [hqueue]
    simp [sent, taken, hout]
  | report =>
    simp only [step?] at hx
    split at hx <;> cases hx
    rename_i code hwaiter
    obtain ⟨hl, hqueue⟩ := queue_send { r with waiter := .done } (.exited code)
    refine Or.inr ⟨by simp, hl, ?_⟩
    rw [hqueue]
    simp [sent, taken, hwaiter]
  | take =>
    simp only [step?] at hx
    split at hx <;> cases hx
    refine Or.inr ⟨by simp, rfl, ?_⟩
    cases hqueue : r.queue <;> simp [sent, taken, hqueue]
  | kill reply =>
    simp only [step?, Option.some.injEq] at hx
    subst hx
    unfold kill
    split <;> exact Or.inr ⟨by simp, rfl, hnothing⟩
  | poll =>
    simp only [step?] at hx
    split at hx
    · split at hx <;> cases hx <;> exact Or.inr ⟨by simp, rfl, hnothing⟩
    · cases hx
  | write t bytes | close t | bequeath t | release t | read t n | readEnd t | readFail t =>
    simp only [step?] at hx
    split at hx <;> cases hx
    refine Or.inr ⟨by simp, (listening_setFeed ..).1, ?_⟩
    rw [(listening_setFeed ..).2]
    exact hnothing
  | finish status | interrupt t | join | pollFail =>
    simp only [step?] at hx
    split at hx <;> cases hx
    exact Or.inr ⟨by simp, rfl, hnothing⟩

/-- Events are taken in the order in which they were sent, and none is lost. -/
theorem taken_append_queue {steps : List Step} {r : Run}
    (h : ({} : Run).steps? steps = some r) (hl : r.listening = true) :
    ({} : Run).history taken steps ++ r.queue = ({} : Run).history sent steps := by
  refine Schedule.concat_induction
    (P := fun steps r => r.listening = true →
      ({} : Run).history taken steps ++ r.queue = ({} : Run).history sent steps) ?_ ?_ h hl
  · intro _
    rfl
  · intro steps t x u ht hqueue hx hu
    rcases channel_step hx with ⟨-, hdeaf, -⟩ | ⟨-, hsame, hstep⟩
    · rw [hdeaf] at hu
      cases hu
    · have ht' : t.listening = true := hsame ▸ hu
      rw [if_pos ht'] at hstep
      rw [history, history, Schedule.along_concat ht hx, Schedule.along_concat ht hx,
        List.append_assoc, ← hstep, ← List.append_assoc]
      exact congrArg (· ++ t.sent x) (hqueue ht')

/-- Nothing is kept for one who does not listen. -/
theorem queue_eq_nil_of_deaf {steps : List Step} {r : Run} (h : ({} : Run).steps? steps = some r)
    (hdeaf : r.listening = false) : r.queue = [] := by
  refine Schedule.invariant (P := fun r : Run => r.listening = false → r.queue = []) ?_ ?_ h hdeaf
  · intro r x r' hr hx hdeaf'
    rcases channel_step hx with ⟨-, -, hempty⟩ | ⟨-, hsame, hstep⟩
    · exact hempty
    · rw [hsame] at hdeaf'
      rw [hr hdeaf', hdeaf'] at hstep
      exact (List.append_eq_nil_iff.1 hstep.symm).2
  · intro hdeaf'
    simp at hdeaf'

/-- Once an exit has been taken nothing is left to be taken. -/
theorem queue_eq_nil_of_exited_taken {steps : List Step} {r : Run}
    (h : ({} : Run).steps? steps = some r) (hl : r.listening = true) {last : Option ExitCode}
    (hexit : .exited last ∈ ({} : Run).history taken steps) : r.queue = [] ∧ r.isOver = true := by
  have horder := orderly h
  have hall := taken_append_queue h hl
  have hsent : .exited last ∈ ({} : Run).history sent steps := by
    rw [← hall]
    exact List.mem_append_left _ hexit
  have hover : r.isOver = true := by
    cases hover : r.isOver with
    | true => rfl
    | false => exact absurd hsent (Event.exited_notMem (horder.lines hover) last)
  refine ⟨?_, hover⟩
  obtain ⟨lines, code, hlines, hareLines⟩ := horder.exit hover
  rw [hlines] at hall
  cases hqueue : r.queue.reverse with
  | nil => simpa using hqueue
  | cons e rest =>
    -- the exit that was taken would not be the last event that was sent
    have hback : r.queue = rest.reverse ++ [e] := by
      rw [← List.reverse_reverse r.queue, hqueue, List.reverse_cons]
    rw [hback, ← List.append_assoc] at hall
    obtain ⟨hfront, -⟩ := List.append_inj' hall rfl
    have hmem : .exited last ∈ lines := by
      rw [← hfront]
      exact List.mem_append_left _ hexit
    exact absurd hmem (Event.exited_notMem hareLines last)

/-! ## Nothing comes after the exit -/

/-- A run that is over sends nothing in its next step and stays over. -/
theorem quiet_step {r r' : Run} {x : Step} (hover : r.isOver = true)
    (hdone : ∀ s, (r.feed s).isDone = true) (hx : r.step? x = some r') :
    r.sent x = [] ∧ r'.isOver = true ∧ ∀ s, (r'.feed s).isDone = true := by
  have hfeeds : ∀ s, (r'.feed s).isDone = true := fun s => ((feed_move hx s).isDone (hdone s)).1
  have hmove := waiter_move hx
  rw [isOver_iff] at hover
  generalize r.sent x = sent at hmove ⊢
  generalize hw : r'.waiter = waiter at hmove
  cases hmove with
  | rest _ hlines hquiet => exact ⟨hquiet hdone, isOver_iff.2 (hw.trans hover), hfeeds⟩
  | join hwaiter _ =>
    rw [hwaiter] at hover
    simp at hover
  | collect code hwaiter =>
    rw [hwaiter] at hover
    simp at hover
  | report code hwaiter =>
    rw [hwaiter] at hover
    simp at hover

/-- A run that is over sends nothing any more. -/
theorem quiet_after_exit {r r' : Run} {more : List Step} (hover : r.isOver = true)
    (hdone : ∀ s, (r.feed s).isDone = true) (h : r.steps? more = some r') :
    r.history sent more = [] := by
  induction more generalizing r with
  | nil => rfl
  | cons x more ih =>
    obtain ⟨u, hu, hrest⟩ := Option.bind_eq_some_iff.1 h
    obtain ⟨hsent, hover', hdone'⟩ := quiet_step hover hdone hu
    simp only [history, Schedule.along, hu, hsent, List.nil_append]
    exact ih hover' hdone' hrest

end Run

end ScriptWorkbench
