import ScriptWorkbench.CommandLine.Execute
import ScriptWorkbench.Proofs.Run.Ending
import ScriptWorkbench.Proofs.Session.Inside

/-!
# What a workbench does by itself

A workbench settles by what happens inside its runs and by what their pumps carry, and so does an
interpreter that obeys commands (`Workbench.Evolves`).  None of this looks at what a subscriber has
received (`Workbench.received_eq_nil`).
-/

set_option autoImplicit false

namespace ScriptWorkbench

/-- Whether a step is one that happens inside a run: nothing is killed, taken or given up there. -/
def Run.Step.isInside : Run.Step → Bool
  | .kill _ | .take | .hangUp => false
  | _ => true

/-- What readers and waiter do happens inside a run. -/
theorem Run.Step.isInside_of_isOwn {x : Run.Step} (h : x.isOwn = true) : x.isInside = true := by
  cases x <;> first | rfl | cases h

/-- A command is carried out inside a run. -/
theorem Command.isInside_toSteps (c : Command) : ∀ x ∈ c.toSteps, x.isInside = true := by
  cases c <;> simp [Command.toSteps, Run.Step.isInside]

/-- An interpreter obeys by doing what happens inside a run. -/
theorem Run.exists_steps?_obey {r r' : Run} {c : Command} (h : r.obey c = .ok r') :
    ∃ xs : List Run.Step, (∀ x ∈ xs, x.isInside = true) ∧ r.steps? xs = some r' := by
  have hsettled : r' = ((r.steps? c.toSteps).getD r).settle := by
    unfold obey at h
    split at h
    · cases h
    · split at h
      · cases h
      · split at h <;> cases h
        rfl
  obtain ⟨own, hown, hsteps⟩ := ((r.steps? c.toSteps).getD r).exists_own_steps?_settle
  rw [← hsettled] at hsteps
  have hinside : ∀ x ∈ own, x.isInside = true := fun x hx =>
    Step.isInside_of_isOwn (hown x hx)
  cases hobeyed : r.steps? c.toSteps with
  | none =>
    rw [hobeyed] at hsteps
    exact ⟨own, hinside, hsteps⟩
  | some u =>
    rw [hobeyed] at hsteps
    exact ⟨c.toSteps ++ own, List.forall_mem_append.2 ⟨c.isInside_toSteps, hinside⟩,
      Schedule.after?_trans hobeyed hsteps⟩

namespace Workbench

/-- Whether a step happens inside a run or carries an event of a run. -/
def Step.isOfRun : Step → Bool
  | .inside _ _ | .pump _ => true
  | _ => false

/-- What a workbench can become by its runs and their pumps alone. -/
def Evolves (w w' : Workbench) : Prop :=
  ∃ steps : List Step, (∀ x ∈ steps, x.isOfRun = true) ∧ w.steps? steps = some w'

/-- Whether no two runs have the same number. -/
def IsNumbered (w : Workbench) : Prop :=
  (w.runs.map Prod.fst).Nodup

/-! ## Changing one run -/

/-- Changing a run leaves the numbers alone. -/
theorem keys_modifyRun (w : Workbench) (id : SessionId) (f : Run → Run) :
    (w.modifyRun id f).runs.map Prod.fst = w.runs.map Prod.fst := by
  unfold modifyRun
  rw [List.map_map]
  refine List.map_congr_left ?_
  rintro ⟨i, r⟩ -
  by_cases hi : i = id <;> simp [hi]

/-- Two changes of one run are one change. -/
theorem modifyRun_modifyRun (w : Workbench) (id : SessionId) (f g : Run → Run) :
    (w.modifyRun id f).modifyRun id g = w.modifyRun id fun r => g (f r) := by
  unfold modifyRun
  rw [List.map_map]
  congr 1
  refine List.map_congr_left ?_
  rintro ⟨i, r⟩ -
  by_cases hi : i = id <;> simp [hi]

/-- A run is found under its number, since each number is there once. -/
theorem run?_of_mem {w : Workbench} (hw : w.IsNumbered) {id : SessionId} {r : Run}
    (h : (id, r) ∈ w.runs) : w.run? id = some r := by
  obtain ⟨a, b, hruns⟩ := List.append_of_mem h
  rw [IsNumbered, hruns, List.map_append, List.nodup_append] at hw
  refine List.lookup_eq_some_iff.2 ⟨a, b, hruns, ?_⟩
  intro q hq
  rw [bne_iff_ne, ne_comm]
  exact hw.2.2 q.1 (List.mem_map_of_mem hq) id List.mem_cons_self

/-- Changing a run depends only on what the run was. -/
theorem modifyRun_congr {w : Workbench} (hw : w.IsNumbered) {id : SessionId} {f g : Run → Run}
    (h : ∀ r, w.run? id = some r → f r = g r) : w.modifyRun id f = w.modifyRun id g := by
  unfold modifyRun
  congr 1
  refine List.map_congr_left ?_
  rintro ⟨i, r⟩ hmem
  by_cases hi : i = id
  · subst hi
    simp [h r (run?_of_mem hw hmem)]
  · simp [hi]

/-- A change that leaves a run as it is leaves the workbench as it is. -/
theorem modifyRun_eq_self {w : Workbench} (hw : w.IsNumbered) {id : SessionId} {f : Run → Run}
    (h : ∀ r, w.run? id = some r → f r = r) : w.modifyRun id f = w := by
  rw [modifyRun_congr hw (g := fun r => r) h]
  unfold modifyRun
  have hsame : (w.runs.map fun r => if r.1 = id then (id, r.2) else r) = w.runs := by
    refine (List.map_congr_left ?_).trans (List.map_id w.runs)
    rintro ⟨i, r⟩ -
    by_cases hi : i = id <;> simp [hi]
  rw [hsame]

/-! ## Rows of steps -/

/-- A workbench that stays as it is has evolved. -/
theorem Evolves.refl (w : Workbench) : w.Evolves w :=
  ⟨[], by simp, rfl⟩

/-- What evolves twice has evolved. -/
theorem Evolves.trans {u v w : Workbench} (huv : u.Evolves v) (hvw : v.Evolves w) :
    u.Evolves w := by
  obtain ⟨a, ha, hv⟩ := huv
  obtain ⟨b, hb, hw⟩ := hvw
  exact ⟨a ++ b, List.forall_mem_append.2 ⟨ha, hb⟩, Schedule.after?_trans hv hw⟩

/-- A step inside a run or of its pump lets the workbench evolve. -/
theorem Evolves.step {w w' : Workbench} {x : Step} (hx : w.step? x = some w')
    (hrun : x.isOfRun = true) : w.Evolves w' := by
  refine ⟨[x], ?_, ?_⟩
  · intro y hy
    rw [List.mem_singleton.1 hy]
    exact hrun
  · simp [steps?, Schedule.after?, hx]

/-- What happens inside a run or at its pump leaves the runs their numbers. -/
theorem keys_step {w w' : Workbench} {x : Step} (hx : w.step? x = some w')
    (hrun : x.isOfRun = true) : w'.runs.map Prod.fst = w.runs.map Prod.fst := by
  cases x with
  | inside id y =>
    obtain ⟨r, r', -, -, rfl⟩ := inside_cases hx
    exact keys_modifyRun w id _
  | pump id =>
    obtain ⟨r, e, es, -, -, rfl⟩ := pump_cases hx
    exact keys_modifyRun w id fun r => { r with queue := es }
  | run script hitch | cancel | subscribe | unsubscribe i | empty i | await i | look i
  | meddle machine | permit reply => cases hrun

/-- No run is begun while a workbench evolves. -/
theorem Evolves.keys {w w' : Workbench} (h : w.Evolves w') :
    w'.runs.map Prod.fst = w.runs.map Prod.fst := by
  obtain ⟨steps, hsteps, hw'⟩ := h
  induction steps generalizing w with
  | nil =>
    cases hw'
    rfl
  | cons x steps ih =>
    obtain ⟨u, hu, hrest⟩ := Option.bind_eq_some_iff.1 hw'
    rw [ih (fun y hy => hsteps y (List.mem_cons_of_mem x hy)) hrest,
      keys_step hu (hsteps x List.mem_cons_self)]

/-- Each number is still there once when a workbench has evolved. -/
theorem Evolves.isNumbered {w w' : Workbench} (h : w.Evolves w') (hw : w.IsNumbered) :
    w'.IsNumbered := by
  unfold IsNumbered
  rw [h.keys]
  exact hw

/-- Runs and pumps leave the subscribers alone with what they have received. -/
theorem received_eq_nil {w : Workbench} {steps : List Step}
    (hsteps : ∀ x ∈ steps, x.isOfRun = true) (i : Nat) :
    w.history (received i) steps = [] := by
  refine Schedule.along_eq_nil ?_
  intro x hx u
  have hrun := hsteps x hx
  cases x <;> first | rfl | cases hrun

/-! ## Settling -/

/-- A step of a run is a step of the workbench, if it is one that happens inside. -/
theorem step?_inside {w : Workbench} {id : SessionId} {r r' : Run} {x : Run.Step}
    (hr : w.run? id = some r) (hinside : x.isInside = true) (hx : r.step? x = some r') :
    w.step? (.inside id x) = some (w.modifyRun id fun _ => r') := by
  cases x with
  | kill reply | take | hangUp => cases hinside
  | write s bytes | close s | bequeath s | release s | finish status | read s n | interrupt s
  | readEnd s | readFail s | send s | join | poll | pollFail | report => simp [step?, hr, hx]

/-- A row of steps inside a run. -/
theorem evolves_inside {w : Workbench} (hw : w.IsNumbered) {id : SessionId} {r r' : Run}
    {xs : List Run.Step} (hr : w.run? id = some r) (hinside : ∀ x ∈ xs, x.isInside = true)
    (h : r.steps? xs = some r') : w.Evolves (w.modifyRun id fun _ => r') := by
  induction xs generalizing w r with
  | nil =>
    cases h
    rw [modifyRun_eq_self hw]
    · exact .refl w
    · intro q hq
      rw [hr] at hq
      exact Option.some.inj hq
  | cons x xs ih =>
    obtain ⟨u, hu, hrest⟩ := Option.bind_eq_some_iff.1 h
    have hfirst : w.Evolves (w.modifyRun id fun _ => u) :=
      .step (step?_inside hr (hinside x List.mem_cons_self) hu) rfl
    have hnext : (w.modifyRun id fun _ => u).run? id = some u := by
      rw [run?_modifyRun, if_pos rfl, hr]
      rfl
    have hlater := ih (hfirst.isNumbered hw) hnext
      (fun y hy => hinside y (List.mem_cons_of_mem x hy)) hrest
    -- the last change is the one that stays
    rw [modifyRun_modifyRun] at hlater
    exact hfirst.trans hlater

/-- Carrying events to the ledger lets the workbench evolve. -/
theorem evolves_pumpAll (id : SessionId) (fuel : Nat) (w : Workbench) :
    w.Evolves (pumpAll id fuel w) := by
  induction fuel generalizing w with
  | zero => exact .refl w
  | succ fuel ih =>
    unfold pumpAll
    cases hpump : w.pump? id with
    | none => exact .refl w
    | some u => exact .trans (.step (x := .pump id) hpump rfl) (ih u)

/-- A run of a workbench settles by itself. -/
theorem evolves_settleRun {w : Workbench} (hw : w.IsNumbered) (id : SessionId) :
    w.Evolves (w.settleRun id) := by
  have hsettle : w.Evolves (w.modifyRun id Run.settle) := by
    cases hr : w.run? id with
    | none =>
      rw [modifyRun_eq_self hw]
      · exact .refl w
      · simp [hr]
    | some r =>
      obtain ⟨xs, hown, hxs⟩ := r.exists_own_steps?_settle
      have hinside := evolves_inside hw hr
        (fun x hx => Run.Step.isInside_of_isOwn (hown x hx)) hxs
      rw [modifyRun_congr hw (g := fun _ => r.settle)]
      · exact hinside
      · intro q hq
        rw [hr] at hq
        rw [Option.some.inj hq]
  exact hsettle.trans (evolves_pumpAll id _ _)

/-- What each of a row of actions lets a workbench do, the row does. -/
theorem evolves_foldl {α : Type} {act : Workbench → α → Workbench}
    (hact : ∀ (w : Workbench) a, w.IsNumbered → w.Evolves (act w a)) (l : List α) {w : Workbench}
    (hw : w.IsNumbered) : w.Evolves (l.foldl act w) := by
  induction l generalizing w with
  | nil => exact .refl w
  | cons a l ih =>
    have hfirst := hact w a hw
    exact hfirst.trans (ih (hfirst.isNumbered hw))

/-- Settling lets the workbench evolve. -/
theorem evolves_settle {w : Workbench} (hw : w.IsNumbered) : w.Evolves w.settle :=
  evolves_foldl (fun _ id hu => evolves_settleRun hu id) _ hw

/-- An interpreter that obeys a command does nothing but what a run can do. -/
theorem evolves_command {w : Workbench} (hw : w.IsNumbered) {c : Command} {w' : Workbench}
    (h : w.command c = some (.ok w')) : w.Evolves w' := by
  obtain ⟨⟨id, r⟩, hcurrent, hanswer⟩ := Option.map_eq_some_iff.1 h
  have hr : w.run? id = some r := by
    unfold current? at hcurrent
    split at hcurrent
    · cases hcurrent
    · obtain ⟨q, hq, hpair⟩ := Option.map_eq_some_iff.1 hcurrent
      cases hpair
      exact (Option.filter_eq_some_iff.1 hq).1
  change (r.obey c).map (fun r => (w.modifyRun id fun _ => r).settleRun id) = .ok w' at hanswer
  cases hobey : r.obey c with
  | error refusal =>
    rw [hobey] at hanswer
    cases hanswer
  | ok r' =>
    rw [hobey] at hanswer
    cases hanswer
    obtain ⟨xs, hinside, hxs⟩ := Run.exists_steps?_obey hobey
    have hobeyed := evolves_inside hw hr hinside hxs
    exact hobeyed.trans (evolves_settleRun (hobeyed.isNumbered hw) id)

end Workbench

/-- Giving commands to an interpreter is one way in which a run goes on. -/
theorem CommandLine.evolves_obeyAll {w : Workbench} (hw : w.IsNumbered) (commands : List Command) :
    w.Evolves (obeyAll w commands) := by
  refine Workbench.evolves_foldl ?_ commands hw
  intro w c hw
  cases h : w.command c with
  | none => exact .refl w
  | some answer =>
    cases answer with
    | error refusal => exact .refl w
    | ok w' => exact Workbench.evolves_command hw h

end ScriptWorkbench
