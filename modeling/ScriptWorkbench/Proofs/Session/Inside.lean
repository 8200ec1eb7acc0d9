import ScriptWorkbench.Proofs.Run.Order
import ScriptWorkbench.Proofs.Session.Moves

/-!
# One run of a workbench

A schedule of a workbench is, for each of its runs, a schedule of that run (`Workbench.run_steps`):
what the run sends and what its pump takes is the same in both (`history_said`, `history_pumped`).
Before it is started, a run is one in which nothing has happened yet.

Whether anybody listens to a run is settled when it is started (`voice_step`).
-/

set_option autoImplicit false

namespace ScriptWorkbench

namespace Run

/-- Whoever listens to a run goes on listening unless it hangs up. -/
theorem listening_step {r r' : Run} {x : Step} (hx : r.step? x = some r') (hne : x ≠ .hangUp) :
    r'.listening = r.listening := by
  rcases channel_step hx with ⟨hhang, -⟩ | ⟨-, hsame, -⟩
  · exact absurd hhang hne
  · exact hsame

/-- Nobody listens to an abandoned run. -/
theorem abandoned_listening (reply : SignalReply) : (abandoned reply).listening = false :=
  listening_step (x := .kill reply) rfl (by simp)

end Run

namespace Workbench

/-! ## The runs of a workbench -/

/-- Changing a run leaves the others alone. -/
theorem run?_modifyRun (w : Workbench) (i id : SessionId) (f : Run → Run) :
    (w.modifyRun i f).run? id = if i = id then (w.run? id).map f else w.run? id := by
  unfold run? modifyRun
  induction w.runs with
  | nil => simp
  | cons r rs ih =>
    obtain ⟨j, run⟩ := r
    by_cases hj : j = i
    · subst hj
      by_cases hid : j = id
      · simp [hid]
      · have hne : (id == j) = false := beq_false_of_ne (Ne.symm hid)
        simpa [List.lookup_cons, hne, hid] using ih
    · by_cases hid : j = id
      · subst hid
        simp [hj, Ne.symm hj]
      · have hne : (id == j) = false := beq_false_of_ne (Ne.symm hid)
        simpa [List.lookup_cons, hj, hne] using ih

/-- A kill of the run in progress is a kill of the run that the ledger names. -/
theorem run?_killCurrent (w : Workbench) (id : SessionId) :
    w.killCurrent.run? id =
      if w.ledger.killer = some id then (w.run? id).map (·.kill w.signals) else w.run? id := by
  unfold killCurrent
  split
  · rename_i hnone
    simp [hnone]
  · rename_i i hsome
    rw [run?_modifyRun, hsome]
    simp

/-- What a new run is like, if there is one. -/
def newcomer (w : Workbench) (started : Except Failure Unit) : Option Run :=
  match started with
  | .ok _ => some {}
  | .error (.pump _) => some (.abandoned w.signals)
  | .error (.launch _) => none

/-- A run that is entered comes to those that there are, if it was started. -/
theorem runs_enroll (w : Workbench) (script : Text) (hitch : Option Hitch)
    (launch : Machine × Launched) :
    (w.enroll script hitch launch).2.runs = w.runs ++
      ((w.newcomer (Hitch.start launch.2 hitch)).map fun r => (w.ledger.issued + 1, r)).toList := by
  simp only [enroll, newcomer, Ledger.issued_enter]
  cases Hitch.start launch.2 hitch with
  | ok _ => rfl
  | error cause => cases cause <;> simp

/-- A new run comes to those that there are. -/
theorem runs_run (w : Workbench) (script : Text) (hitch : Option Hitch) :
    (w.run script hitch).runs = w.killCurrent.runs ++
      ((w.newcomer (w.started script hitch)).map fun r => (w.ledger.issued + 1, r)).toList := by
  obtain ⟨hledger, hmachine, hplan, hsignals⟩ := w.killCurrent_frame
  simp only [run, submit, runs_enroll, started, newcomer, hledger, hmachine, hplan, hsignals]

/-- A run of a number that no run has had comes to be that of the number. -/
theorem run?_of_runs_append {w w' : Workbench} {i : SessionId} {new : Option Run}
    (h : w'.runs = w.runs ++ (new.map fun r => (i, r)).toList) (id : SessionId) :
    w'.run? id = (w.run? id).or (if id = i then new else none) := by
  unfold run?
  rw [h, List.lookup_append]
  congr
  cases new with
  | none => simp
  | some r =>
    by_cases hid : id = i
    · simp [hid]
    · simp [List.lookup_cons, beq_false_of_ne hid, hid]

/-- After a run was begun its number has the new run, and every other number the run it had, struck
by the kill. -/
theorem run?_run (w : Workbench) (script : Text) (hitch : Option Hitch) (id : SessionId) :
    (w.run script hitch).run? id =
      (w.killCurrent.run? id).or
        (if id = w.ledger.issued + 1 then w.newcomer (w.started script hitch) else none) :=
  run?_of_runs_append (runs_run w script hitch) id

/-- Whether anybody listens to a run, if it was started. -/
def voice (w : Workbench) (id : SessionId) : Option Bool :=
  (w.run? id).map (·.listening)

/-- A change that concerns no listener changes nobody's listening. -/
theorem voice_modifyRun {w : Workbench} {i : SessionId} {f : Run → Run}
    (hf : ∀ r, w.run? i = some r → (f r).listening = r.listening) (id : SessionId) :
    (w.modifyRun i f).voice id = w.voice id := by
  unfold voice
  rw [run?_modifyRun]
  split
  · rename_i hi
    subst hi
    cases hr : w.run? i with
    | none => rfl
    | some r => exact congrArg some (hf r hr)
  · rfl

/-- A kill changes nobody's listening. -/
theorem voice_killCurrent (w : Workbench) (id : SessionId) :
    w.killCurrent.voice id = w.voice id := by
  unfold killCurrent
  split
  · rfl
  · refine voice_modifyRun ?_ id
    intro r _
    exact Run.listening_step (x := .kill w.signals) rfl (by simp)

/-- Whether anybody listens to a run is settled when it is started. -/
theorem voice_step {w w' : Workbench} {x : Step} (h : w.step? x = some w') (id : SessionId) :
    w'.voice id = (w.voice id).or
      (match x with
      | .run script hitch =>
        if id = w.ledger.issued + 1 then
          (w.newcomer (w.started script hitch)).map (·.listening)
        else none
      | _ => none) := by
  cases x with
  | run script hitch =>
    simp only [step?, Option.some.injEq] at h
    subst h
    rw [← voice_killCurrent w, voice, run?_run, Option.map_or]
    split <;> rfl
  | cancel =>
    simp only [step?, Option.some.injEq] at h
    subst h
    rw [Option.or_none]
    exact voice_killCurrent w id
  | pump i =>
    obtain ⟨r, e, es, -, -, rfl⟩ := pump_cases h
    rw [Option.or_none]
    have hsame : (w.modifyRun i fun r => { r with queue := es }).voice id = w.voice id := by
      refine voice_modifyRun ?_ id
      intro r _
      rfl
    exact hsame
  | inside i y =>
    have hy : y ≠ .hangUp := by
      rintro rfl
      simp [step?] at h
    obtain ⟨r, r', hr, hstep, rfl⟩ := inside_cases h
    rw [Option.or_none]
    refine voice_modifyRun ?_ id
    intro q hq
    rw [hr] at hq
    cases hq
    exact Run.listening_step hstep hy
  | look i =>
    simp only [step?] at h
    split at h
    · cases h
    · split at h <;> cases h
      rw [Option.or_none]
      rfl
  | subscribe | unsubscribe i | empty i | await i | meddle machine | permit reply =>
    simp only [step?, Option.some.injEq] at h
    subst h
    rw [Option.or_none]
    rfl

/-! ## What happens in a run -/

/-- What the kill of the run in progress is to one run. -/
def strikes (id : SessionId) (w : Workbench) : List Run.Step :=
  if w.ledger.killer = some id ∧ (w.run? id).isSome then [.kill w.signals] else []

/-- What a step of a workbench does to one of its runs. -/
def runMoves (id : SessionId) (w : Workbench) : Step → List Run.Step
  | .run script hitch =>
    w.strikes id ++
      match w.started script hitch with
      | .error (.pump _) =>
        if id = w.ledger.issued + 1 ∧ w.run? id = none then [.hangUp, .kill w.signals] else []
      | _ => []
  | .cancel => w.strikes id
  | .pump i => if i = id then [.take] else []
  | .inside i x => if i = id then [x] else []
  | _ => []

/-- A run; before it is started nothing has happened in it. -/
def view (id : SessionId) (w : Workbench) : Run :=
  (w.run? id).getD {}

/-- The run in progress sees the kill as a step of its own, and the other runs see nothing. -/
theorem view_strikes (w : Workbench) (id : SessionId) :
    (w.view id).steps? (w.strikes id) = some (w.killCurrent.view id) := by
  unfold view strikes
  rw [run?_killCurrent]
  by_cases hkiller : w.ledger.killer = some id
  · cases hr : w.run? id with
    | none => simp [hkiller, Run.steps?, Schedule.after?]
    | some r => simp [hkiller, Run.steps?, Schedule.after?, Run.step?]
  · simp [hkiller, Run.steps?, Schedule.after?]

/-- A kill neither adds a run nor takes one away. -/
theorem isNone_killCurrent (w : Workbench) (id : SessionId) :
    w.killCurrent.run? id = none ↔ w.run? id = none := by
  have hvoice := w.voice_killCurrent id
  unfold voice at hvoice
  rw [← Option.map_eq_none_iff (f := Run.listening), hvoice, Option.map_eq_none_iff]

/-- A step of a workbench is a row of steps of each of its runs. -/
theorem run_step (id : SessionId) (w : Workbench) (x : Step) (w' : Workbench)
    (h : w.step? x = some w') : (w.view id).steps? (w.runMoves id x) = some (w'.view id) := by
  cases x with
  | run script hitch =>
    simp only [step?, Option.some.injEq] at h
    subst h
    rw [runMoves, Run.steps?, Schedule.after?_append]
    rw [show Schedule.after? Run.step? (w.view id) (w.strikes id) = _ from w.view_strikes id,
      Option.bind_some, view, view, run?_run]
    simp only [← isNone_killCurrent w id]
    cases hr : w.killCurrent.run? id with
    | some r =>
      -- the run was there before, so the new one is another
      simp only [Option.some_or, reduceCtorEq, and_false, if_false]
      split <;> rfl
    | none =>
      by_cases hid : id = w.ledger.issued + 1
      · subst hid
        cases hstarted : w.started script hitch with
        | ok _ => simp [Schedule.after?, newcomer]
        | error cause =>
          cases cause <;> simp [Schedule.after?, Run.step?, newcomer, Run.abandoned]
      · simp only [hid, false_and, if_false]
        split <;> rfl
  | cancel =>
    simp only [step?, Option.some.injEq] at h
    subst h
    exact w.view_strikes id
  | pump i =>
    obtain ⟨r, e, es, hr, hqueue, rfl⟩ := pump_cases h
    have hview : ({ w.modifyRun i (fun r => { r with queue := es }) with
        ledger := (w.ledger.apply i (.ofEvent e)).1 } : Workbench).view id =
        ((w.modifyRun i fun r => { r with queue := es }).run? id).getD {} := rfl
    rw [hview, run?_modifyRun, view, runMoves]
    by_cases hi : i = id
    · subst hi
      simp [hr, Run.steps?, Schedule.after?, Run.step?, hqueue]
    · simp [hi, Run.steps?, Schedule.after?]
  | inside i y =>
    obtain ⟨r, r', hr, hstep, rfl⟩ := inside_cases h
    rw [view, view, run?_modifyRun, runMoves]
    by_cases hi : i = id
    · subst hi
      simp [hr, Run.steps?, Schedule.after?, hstep]
    · simp [hi, Run.steps?, Schedule.after?]
  | look i =>
    simp only [step?] at h
    split at h
    · cases h
    · split at h <;> cases h
      rfl
  | subscribe | unsubscribe i | empty i | await i | meddle machine | permit reply =>
    simp only [step?, Option.some.injEq] at h
    subst h
    rfl

/-- A schedule of a workbench is a schedule of each of its runs. -/
theorem run_steps (id : SessionId) {w w' : Workbench} {steps : List Step}
    (h : w.steps? steps = some w') :
    (w.view id).steps? (w.history (runMoves id) steps) = some (w'.view id) :=
  Schedule.after?_part (run_step id) h

/-- A step that is not about a run does no more to it than to kill it or to hang up on it. -/
theorem history_runMoves_eq_nil {id : SessionId} (w : Workbench) {x : Step}
    {see : Run → Run.Step → List Event} (hkill : ∀ r reply, see r (.kill reply) = [])
    (hhang : ∀ r, see r .hangUp = []) (hpump : x ≠ .pump id) (hinside : ∀ y, x ≠ .inside id y) :
    (w.view id).history see (w.runMoves id x) = [] := by
  refine Schedule.along_eq_nil ?_
  intro m hm r
  have hstrikes : m ∈ w.strikes id → see r m = [] := by
    unfold strikes
    split
    · intro hm
      rw [List.mem_singleton.1 hm]
      exact hkill r w.signals
    · simp
  cases x with
  | run script hitch =>
    rcases List.mem_append.1 hm with hm | hm
    · exact hstrikes hm
    · split at hm
      · split at hm
        · simp only [List.mem_cons, List.not_mem_nil, or_false] at hm
          rcases hm with rfl | rfl
          · exact hhang r
          · exact hkill r w.signals
        · simp at hm
      · simp at hm
  | cancel => exact hstrikes hm
  | pump i =>
    have hi : i ≠ id := fun hi => hpump (hi ▸ rfl)
    simp [runMoves, hi] at hm
  | inside i y =>
    have hi : i ≠ id := fun hi => hinside y (hi ▸ rfl)
    simp [runMoves, hi] at hm
  | look i | subscribe | unsubscribe i | empty i | await i | meddle machine | permit reply =>
    simp [runMoves] at hm

/-- What the pump of a run takes is taken from the run. -/
theorem history_pumped (id : SessionId) {w w' : Workbench} {steps : List Step}
    (h : w.steps? steps = some w') :
    w.history (pumped id) steps =
      (w.view id).history Run.taken (w.history (runMoves id) steps) := by
  refine Schedule.along_part (run_step id) ?_ h
  intro w x w' hx
  have hnil : x ≠ .pump id → (∀ y, x ≠ .inside id y) →
      (w.view id).history Run.taken (w.runMoves id x) = [] :=
    w.history_runMoves_eq_nil (fun _ _ => rfl) (fun _ => rfl)
  cases x with
  | pump i =>
    by_cases hi : i = id
    · subst hi
      obtain ⟨r, e, es, hr, hqueue, -⟩ := pump_cases hx
      simp [pumped, runMoves, Schedule.along, Run.step?, Run.taken, view, hr, hqueue]
    · exact (if_neg hi).trans (hnil (by simp [hi]) (by simp)).symm
  | inside i y =>
    by_cases hi : i = id
    · subst hi
      -- only a pump takes events
      obtain ⟨r, r', hr, hstep, -⟩ := inside_cases hx
      cases y <;>
        first | cases hx | simp [pumped, runMoves, Schedule.along, view, hr, hstep, Run.taken]
    · exact (hnil (by simp) (by simp [hi])).symm
  | run script hitch | cancel | look i | subscribe | unsubscribe i | empty i | await i
  | meddle machine | permit reply => exact (hnil (by simp) (by simp)).symm

/-- What a run says is what the run sends. -/
theorem history_said (id : SessionId) {w w' : Workbench} {steps : List Step}
    (h : w.steps? steps = some w') :
    w.history (said id) steps =
      (w.view id).history Run.sent (w.history (runMoves id) steps) := by
  refine Schedule.along_part (run_step id) ?_ h
  intro w x w' hx
  have hnil : x ≠ .pump id → (∀ y, x ≠ .inside id y) →
      (w.view id).history Run.sent (w.runMoves id x) = [] :=
    w.history_runMoves_eq_nil (fun _ _ => rfl) (fun _ => rfl)
  cases x with
  | pump i =>
    by_cases hi : i = id
    · subst hi
      obtain ⟨r, e, es, hr, hqueue, -⟩ := pump_cases hx
      simp [said, runMoves, Schedule.along, Run.step?, Run.sent, view, hr, hqueue]
    · exact (hnil (by simp [hi]) (by simp)).symm
  | inside i y =>
    by_cases hi : i = id
    · subst hi
      obtain ⟨r, r', hr, hstep, -⟩ := inside_cases hx
      simp [said, runMoves, Schedule.along, view, hr, hstep]
    · exact (if_neg hi).trans (hnil (by simp) (by simp [hi])).symm
  | run script hitch | cancel | look i | subscribe | unsubscribe i | empty i | await i
  | meddle machine | permit reply => exact (hnil (by simp) (by simp)).symm

end Workbench

end ScriptWorkbench
