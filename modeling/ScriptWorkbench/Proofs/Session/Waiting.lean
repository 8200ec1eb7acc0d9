import ScriptWorkbench.Proofs.Session.Cancelling

/-!
# Waiting for a session

A caller that waits for a session looks at the ledger and sleeps until the bell rings if the session
is the current one and running.  The bell rings in the very step that ends this, whatever ends it,
and no other bell reaches the caller (`Ledger.Heralds`).  So a sleeping caller has heard every bell
if and only if it has to wait on (`Workbench.attentive`): it can look exactly when there is an
answer, and is never forgotten.

What it finds then is the session if that is still the current one, and nothing if another run has
taken its place or there was none of that number (`Workbench.wait_answers`).
-/

set_option autoImplicit false

namespace ScriptWorkbench

namespace Ledger

/-! ## The bell -/

/-- What waiting callers are told of a change of the ledger: if the bell does not ring, they wait
for what they waited for; if it does, no run that had begun is in progress any more. -/
structure Heralds (l l' : Ledger) : Prop where
  issued : l.issued ≤ l'.issued
  bell : l.bell ≤ l'.bell
  quiet : l'.bell = l.bell → ∀ id, l'.isPending id = l.isPending id
  rung : l.bell < l'.bell → ∀ id, id ≤ l.issued → l'.isPending id = false

/-- A change of neither the runs in progress nor the bell has nothing to tell. -/
theorem Heralds.of_same {l l' : Ledger} (hissued : l'.issued = l.issued) (hbell : l'.bell = l.bell)
    (hpending : ∀ id, l'.isPending id = l.isPending id) : l.Heralds l' :=
  ⟨Nat.le_of_eq hissued.symm, Nat.le_of_eq hbell.symm, fun _ => hpending, fun h => by omega⟩

/-- Two changes that tell the callers what they have to know do so together. -/
theorem Heralds.trans {l l' l'' : Ledger} (h : l.Heralds l') (h' : l'.Heralds l'') :
    l.Heralds l'' := by
  have hbell := h.bell
  have hbell' := h'.bell
  refine ⟨Nat.le_trans h.issued h'.issued, Nat.le_trans hbell hbell', ?_, ?_⟩
  · intro hsame id
    rw [h'.quiet (by omega), h.quiet (by omega)]
  · intro hrung id hid
    by_cases hlast : l'.bell < l''.bell
    · exact h'.rung hlast id (Nat.le_trans hid h.issued)
    · rw [h'.quiet (by omega)]
      exact h.rung (by omega) id hid

/-- A run that cannot be started is told of twice. -/
theorem bell_enter (l : Ledger) (script : Text) (started : Except Failure Unit) :
    (l.supersede script).bell = l.bell + 1 ∧
      (l.enter script started).bell =
        match started with
        | .ok _ => l.bell + 1
        | .error _ => l.bell + 2 := by
  cases started <;> exact ⟨rfl, rfl⟩

/-- Every move tells the callers what they have to know. -/
theorem heralds_move (l : Ledger) (m : Move) : l.Heralds (l.move m) := by
  cases m with
  | enter script started =>
    have hissued : (l.move (.enter script started)).issued = l.issued + 1 :=
      l.issued_enter script started
    have hbell : l.bell < (l.move (.enter script started)).bell := by
      rw [move, (l.bell_enter script started).2]
      cases started <;> simp
    refine ⟨by omega, Nat.le_of_lt hbell, fun hsame => absurd hsame (Nat.ne_of_gt hbell), ?_⟩
    intro _ id hid
    rw [← Bool.not_eq_true, move, isPending_enter]
    rintro ⟨rfl, -⟩
    omega
  | notice i n =>
    cases hpending : l.isPending i with
    | false =>
      rw [move, apply_of_not_isPending hpending]
      exact .of_same rfl rfl fun _ => rfl
    | true =>
      obtain ⟨s, hs, rfl, hrunning⟩ := isPending_iff.1 hpending
      cases n with
      | output entry =>
        rw [move, apply_output hs hrunning]
        refine .of_same rfl rfl ?_
        intro id
        rw [Bool.eq_iff_iff, isPending_iff, isPending_iff]
        simp [publish, hs]
      | exited code =>
        rw [move, apply_exited hs hrunning]
        have hbell : l.bell < l.bell + 1 := Nat.lt_succ_self _
        refine ⟨Nat.le_refl _, Nat.le_of_lt hbell,
          fun hsame => absurd hsame (Nat.ne_of_gt hbell), ?_⟩
        intro _ id _
        rw [← Bool.not_eq_true, isPending_iff]
        simp [publish, ring]
  | subscribe | unsubscribe i | empty i => exact .of_same rfl rfl fun _ => rfl

/-- Every row of moves tells the callers what they have to know. -/
theorem heralds_moves {l l' : Ledger} {moves : List Move} (h : l.moves? moves = some l') :
    l.Heralds l' := by
  refine Schedule.invariant (P := l.Heralds) ?_ (.of_same rfl rfl fun _ => rfl) h
  intro u m v hu hm
  cases hm
  exact hu.trans (u.heralds_move m)

/-- Only a run that has begun is in progress. -/
theorem IsOrderly.le_issued {l : Ledger} (hl : l.IsOrderly) {id : SessionId}
    (h : l.isPending id = true) : id ≤ l.issued := by
  obtain ⟨s, hs, rfl, -⟩ := isPending_iff.1 h
  exact Nat.le_of_eq (hl.number s hs)

/-- A caller that need not wait gets the current session if that is the one it waited for. -/
theorem finished?_eq_some_iff {l : Ledger} {id : SessionId} (h : l.isPending id = false)
    {s : Session} : l.finished? id = some s ↔ l.session = some s ∧ s.id = id := by
  rw [finished?, Option.filter_eq_some_iff, Bool.and_eq_true, decide_eq_true_eq]
  refine and_congr_right fun hs => and_iff_left_of_imp ?_
  rintro rfl
  cases hstate : s.state with
  | running =>
    have hpending : l.isPending s.id = true := isPending_iff.2 ⟨s, hs, rfl, hstate⟩
    rw [h] at hpending
    cases hpending
  | completed code => rfl
  | failed cause => rfl

end Ledger

/-- A caller without an answer has heard every bell if and only if it has to wait on. -/
structure Caller.Waits (l : Ledger) (c : Caller) : Prop where
  issued : c.id ≤ l.issued
  heard : c.heard ≤ l.bell
  asleep : c.heard = l.bell ↔ l.isPending c.id = true

/-- A caller that waits goes on to wait until it is told. -/
theorem Caller.Waits.after {l l' : Ledger} {c : Caller} (h : c.Waits l) (hl : l.Heralds l') :
    c.Waits l' := by
  have hheard := h.heard
  have hbell := hl.bell
  refine ⟨Nat.le_trans h.issued hl.issued, Nat.le_trans hheard hbell, ?_⟩
  by_cases hrung : l.bell < l'.bell
  · rw [hl.rung hrung c.id h.issued]
    constructor
    · omega
    · intro hpending
      cases hpending
  · have hsame : l'.bell = l.bell := by omega
    rw [hl.quiet hsame, hsame]
    exact h.asleep

namespace Workbench

variable {machine : Machine} {plan : Plan} {steps more : List Step} {w w' : Workbench}
  {x : Step} {i : Nat} {c : Caller}

/-- Every step tells the callers what they have to know. -/
theorem heralds_step (hx : w.step? x = some w') : w.ledger.Heralds w'.ledger :=
  Ledger.heralds_moves (ledger_step w x w' hx)

/-- The ledger of a workbench is orderly, whatever the schedule. -/
theorem isOrderly (h : (new machine plan).steps? steps = some w) : w.ledger.IsOrderly :=
  Ledger.isOrderly_empty.after (ledger_steps h)

/-! ## Callers -/

/-- A caller that has to wait on only listens to the bell. -/
theorem look_of_isPending {l : Ledger} (h : l.isPending c.id = true) :
    look l c = { c with heard := l.bell } := if_pos h

/-- A caller that need not wait gets its answer. -/
theorem look_of_not_isPending {l : Ledger} (h : l.isPending c.id = false) :
    look l c = { c with answer := some (l.finished? c.id) } := by
  rw [look, h]
  rfl

/-- A caller that looks and gets no answer has heard every bell. -/
theorem waits_look {l : Ledger} (hl : l.IsOrderly) (hanswer : (look l c).answer = none) :
    (look l c).Waits l := by
  cases hpending : l.isPending c.id with
  | true =>
    rw [look_of_isPending hpending]
    refine ⟨hl.le_issued hpending, Nat.le_refl _, ?_⟩
    constructor
    · intro _
      exact hpending
    · intro _
      rfl
  | false =>
    rw [look_of_not_isPending hpending] at hanswer
    cases hanswer

/-- What a step makes of the callers: one more comes and looks, or one of them looks again. -/
inductive Attends (w : Workbench) : Step → List Caller → Prop
  | rest (x : Step) : w.Attends x w.callers
  | await (id : SessionId) :
    w.Attends (.await id) (w.callers ++ [look w.ledger ⟨id, 0, none⟩])
  | look (i : Nat) (c : Caller) (hc : w.callers[i]? = some c) (hanswer : c.answer = none)
    (hheard : c.heard ≠ w.ledger.bell) :
    w.Attends (.look i) (w.callers.set i (look w.ledger c))

/-- A kill tells the callers nothing. -/
theorem callers_killCurrent (w : Workbench) : w.killCurrent.callers = w.callers := by
  unfold killCurrent
  split <;> rfl

/-- Every step attends to the callers in one of the ways there are. -/
theorem attends_step (hx : w.step? x = some w') : w.Attends x w'.callers := by
  cases x with
  | run script hitch =>
    rw [← Option.some.inj hx]
    have hrest := Attends.rest (w := w) (.run script hitch)
    rwa [← callers_killCurrent w] at hrest
  | cancel =>
    rw [← Option.some.inj hx, cancel, callers_killCurrent]
    exact .rest _
  | await id =>
    rw [← Option.some.inj hx]
    exact .await id
  | look j =>
    simp only [step?] at hx
    split at hx
    · cases hx
    · rename_i c hc
      split at hx <;> cases hx
      rename_i hlook
      exact .look j c hc hlook.1 hlook.2
  | pump id =>
    obtain ⟨r, e, es, -, -, rfl⟩ := pump_cases hx
    exact .rest _
  | inside id y =>
    obtain ⟨r, r', -, -, rfl⟩ := inside_cases hx
    exact .rest _
  | subscribe | unsubscribe j | empty j | meddle machine | permit reply =>
    rw [← Option.some.inj hx]
    exact .rest _

/-- In every state that can be reached, callers without an answer wait for what they have to. -/
theorem attentive (h : (new machine plan).steps? steps = some w) :
    ∀ c ∈ w.callers, c.answer = none → c.Waits w.ledger := by
  refine Schedule.concat_induction
    (P := fun _ w => ∀ c ∈ w.callers, c.answer = none → c.Waits w.ledger) ?_ ?_ h
  · intro c hc
    cases hc
  · intro steps w x w' hw ih hx c hc hanswer
    have hheralds := heralds_step hx
    have hattends := attends_step hx
    generalize w'.callers = callers at hattends hc
    cases hattends with
    | rest => exact (ih c hc hanswer).after hheralds
    | await id =>
      rcases List.mem_append.1 hc with hc | hc
      · exact (ih c hc hanswer).after hheralds
      · rw [List.mem_singleton] at hc
        rw [hc] at hanswer ⊢
        exact (waits_look (isOrderly hw) hanswer).after hheralds
    | look j d hd _ _ =>
      rcases List.mem_or_eq_of_mem_set hc with hc | rfl
      · exact (ih c hc hanswer).after hheralds
      · exact (waits_look (isOrderly hw) hanswer).after hheralds

/-- A caller without an answer can look exactly when it need not wait on. -/
theorem isSome_look_iff (h : (new machine plan).steps? steps = some w) (hc : w.callers[i]? = some c)
    (hanswer : c.answer = none) :
    (w.step? (.look i)).isSome = true ↔ w.ledger.isPending c.id = false := by
  have hwaits := attentive h c (List.mem_of_getElem? hc) hanswer
  rw [← Bool.not_eq_true, ← hwaits.asleep]
  by_cases hheard : c.heard = w.ledger.bell <;> simp [step?, hc, hanswer, hheard]

/-- A caller that looks again gets its answer. -/
theorem caller_of_look (h : (new machine plan).steps? steps = some w)
    (hc : w.callers[i]? = some c) (hx : w.step? (.look i) = some w') :
    c.answer = none ∧ w.ledger.isPending c.id = false ∧
      w'.callers[i]? = some { c with answer := some (w.ledger.finished? c.id) } := by
  have hsome : (w.step? (.look i)).isSome = true := by
    rw [hx]
    rfl
  simp only [step?, hc] at hx
  split at hx <;> cases hx
  rename_i hlook
  have hpending := (isSome_look_iff h hc hlook.1).1 hsome
  refine ⟨hlook.1, hpending, ?_⟩
  rw [← look_of_not_isPending hpending]
  exact List.getElem?_set_self (List.getElem?_eq_some_iff.1 hc).1

/-- Nothing else happens to a caller. -/
theorem caller_of_ne_look (hc : w.callers[i]? = some c) (hx : w.step? x = some w')
    (hne : x ≠ .look i) : w'.callers[i]? = some c := by
  have hattends := attends_step hx
  generalize w'.callers = callers at hattends ⊢
  cases hattends with
  | rest => exact hc
  | await id =>
    rw [List.getElem?_append_left (List.getElem?_eq_some_iff.1 hc).1]
    exact hc
  | look j d hd _ _ =>
    have hj : j ≠ i := fun hj => hne (hj ▸ rfl)
    rw [List.getElem?_set_ne hj]
    exact hc

/-- An answer is kept. -/
theorem caller_of_answered (h : (new machine plan).steps? steps = some w)
    (hc : w.callers[i]? = some c) (hanswer : c.answer ≠ none) (hmore : w.steps? more = some w') :
    w'.callers[i]? = some c := by
  refine Schedule.concat_induction (P := fun _ w' => w'.callers[i]? = some c) hc ?_ hmore
  intro more u x v hu ih hx
  refine caller_of_ne_look ih hx ?_
  rintro rfl
  exact hanswer (caller_of_look (Schedule.after?_trans h hu) ih hx).1

/-- A caller that does not look goes on waiting. -/
theorem caller_of_not_looking (hc : w.callers[i]? = some c) (hlook : .look i ∉ more)
    (hmore : w.steps? more = some w') : w'.callers[i]? = some c := by
  revert hlook
  refine Schedule.concat_induction (P := fun more w' => .look i ∉ more → w'.callers[i]? = some c)
    (fun _ => hc) ?_ hmore
  intro more u x v hu ih hx hlook
  rw [List.mem_append, List.mem_singleton, not_or] at hlook
  exact caller_of_ne_look (ih hlook.1) hx (Ne.symm hlook.2)

/-- A run that is no longer in progress is never in progress again. -/
theorem not_isPending_of_steps {id : SessionId} (hid : id ≤ w.ledger.issued)
    (hpending : w.ledger.isPending id = false) (hmore : w.steps? more = some w') :
    w'.ledger.isPending id = false := by
  have hheralds := Ledger.heralds_moves (ledger_steps hmore)
  by_cases hrung : w.ledger.bell < w'.ledger.bell
  · exact hheralds.rung hrung id hid
  · have hbell := hheralds.bell
    rw [hheralds.quiet (by omega)]
    exact hpending

/-- The caller of an index got its answer in a step of a schedule: it came, or looked again, when it
did not have to wait, and found what the ledger had for it then. -/
def GotAnswer (start : Workbench) (steps : List Step) (i : Nat) (c : Caller) : Prop :=
  ∃ before x after u, steps = before ++ x :: after ∧ start.steps? before = some u ∧
    (x = .await c.id ∧ i = u.callers.length ∨ x = .look i) ∧ u.ledger.isPending c.id = false ∧
    c.answer = some (u.ledger.finished? c.id)

/-- An answer that was got has been got for good. -/
theorem GotAnswer.concat {start : Workbench} (h : start.GotAnswer steps i c) (x : Step) :
    start.GotAnswer (steps ++ [x]) i c := by
  obtain ⟨before, y, after, u, rfl, hu, hy, hpending, hanswer⟩ := h
  exact ⟨before, y, after ++ [x], u, by simp, hu, hy, hpending, hanswer⟩

/-- A caller that looks and has an answer then did not have to wait. -/
theorem GotAnswer.of_look {start : Workbench} (h : start.steps? steps = some w)
    (hx : x = .await c.id ∧ i = w.callers.length ∨ x = .look i) (hnone : c.answer = none)
    (hanswer : (look w.ledger c).answer ≠ none) :
    start.GotAnswer (steps ++ [x]) i (look w.ledger c) := by
  cases hpending : w.ledger.isPending c.id with
  | true =>
    rw [look_of_isPending hpending] at hanswer
    exact absurd hnone hanswer
  | false =>
    rw [look_of_not_isPending hpending]
    exact ⟨steps, x, [], w, rfl, h, hx, hpending, rfl⟩

/-- Every answer was got at some moment. -/
theorem gotAnswer (h : (new machine plan).steps? steps = some w) :
    ∀ i (c : Caller), w.callers[i]? = some c → c.answer ≠ none →
      (new machine plan).GotAnswer steps i c := by
  refine Schedule.concat_induction
    (P := fun steps w => ∀ i (c : Caller), w.callers[i]? = some c → c.answer ≠ none →
      (new machine plan).GotAnswer steps i c) ?_ ?_ h
  · intro i c hc
    cases hc
  · intro steps w x w' hw ih hx i c hc hanswer
    have hattends := attends_step hx
    generalize w'.callers = callers at hattends hc
    cases hattends with
    | rest => exact (ih i c hc hanswer).concat x
    | await id =>
      rw [List.getElem?_append] at hc
      split at hc
      · exact (ih i c hc hanswer).concat _
      · rename_i hlength
        have hindex : i - w.callers.length = 0 := by
          simpa using (List.getElem?_eq_some_iff.1 hc).1
        rw [hindex] at hc
        obtain rfl := Option.some.inj hc
        exact .of_look hw (Or.inl ⟨rfl, by omega⟩) rfl hanswer
    | look j d hd hnone _ =>
      by_cases hj : j = i
      · subst hj
        rw [List.getElem?_set_self (List.getElem?_eq_some_iff.1 hd).1, Option.some.injEq] at hc
        subst hc
        exact .of_look hw (Or.inr rfl) hnone hanswer
      · rw [List.getElem?_set_ne hj] at hc
        exact (ih i c hc hanswer).concat _

/-! ## Numbers -/

/-- Only a run takes a number. -/
theorem issued_of_not_run (hx : w.step? x = some w')
    (hrun : ∀ script hitch, x ≠ .run script hitch) :
    w'.ledger.issued = w.ledger.issued := by
  have hnone : (w.moves x).countP Ledger.Move.isEnter = 0 := by
    rw [List.countP_eq_zero]
    intro m hm henter
    obtain ⟨script, hitch, rfl⟩ := isRun_of_isEnter_mem_moves hm henter
    exact hrun script hitch rfl
  rw [Ledger.issued_moves (ledger_step w x w' hx), hnone, Nat.add_zero]

/-- The runs that have begun are numbered from one. -/
theorem ids_begun (h : (new machine plan).steps? steps = some w) :
    ((new machine plan).history begun steps).map Prod.fst = List.range' 1 w.ledger.issued := by
  refine Schedule.concat_induction
    (P := fun steps w => ((new machine plan).history begun steps).map Prod.fst =
      List.range' 1 w.ledger.issued) rfl ?_ h
  intro steps w x w' hw ih hx
  rw [history, Schedule.along_concat hw hx, List.map_append, ih]
  cases x with
  | run script hitch =>
    have hissued : w'.ledger.issued = w.ledger.issued + 1 := by
      rw [← Option.some.inj hx, ledger_run, Ledger.issued_enter]
    rw [begun_run, hissued, List.range'_1_concat, Nat.add_comm 1]
    rfl
  | cancel | subscribe | unsubscribe j | empty j | await j | look j | pump j | inside j y
  | meddle machine | permit reply =>
    rw [issued_of_not_run hx (by simp)]
    exact List.append_nil _

/-- A run of a number has begun exactly if the number has been given. -/
theorem exists_begun_iff (h : (new machine plan).steps? steps = some w) (id : Nat) :
    (∃ script, (id, script) ∈ (new machine plan).history begun steps) ↔
      0 < id ∧ id ≤ w.ledger.issued := by
  have hids : id ∈ ((new machine plan).history begun steps).map Prod.fst ↔
      1 ≤ id ∧ id < 1 + w.ledger.issued := by
    rw [ids_begun h, List.mem_range'_1]
  rw [List.mem_map, Prod.exists] at hids
  simp only [exists_and_right, exists_eq_right] at hids
  rw [hids]
  omega

/-- A caller that need not wait gets nothing if no run of that number has begun, or if a later one
has. -/
theorem finished?_eq_none_iff (h : (new machine plan).steps? steps = some w) {id : Nat}
    (hpending : w.ledger.isPending id = false) :
    w.ledger.finished? id = none ↔
      (¬ ∃ script, (id, script) ∈ (new machine plan).history begun steps) ∨
        ∃ (later : Nat) (script : Text),
          id < later ∧ (later, script) ∈ (new machine plan).history begun steps := by
  have horderly := isOrderly h
  have hlater : (∃ (later : Nat) (script : Text), id < later ∧
      (later, script) ∈ (new machine plan).history begun steps) ↔ id < w.ledger.issued := by
    constructor
    · rintro ⟨later, script, hlt, hbegun⟩
      exact Nat.lt_of_lt_of_le hlt ((exists_begun_iff h later).1 ⟨script, hbegun⟩).2
    · intro hlt
      obtain ⟨script, hbegun⟩ := (exists_begun_iff h w.ledger.issued).2 ⟨by omega, Nat.le_refl _⟩
      exact ⟨_, script, hlt, hbegun⟩
  rw [exists_begun_iff h, hlater]
  cases hs : w.ledger.session with
  | none =>
    have hissued := horderly.idle.1 hs
    have hnone : w.ledger.finished? id = none := by
      rw [Ledger.finished?, hs]
      rfl
    rw [hnone]
    simp only [true_iff]
    omega
  | some s =>
    have hnumber := horderly.number s hs
    have hpos : w.ledger.issued ≠ 0 := by
      intro hzero
      rw [horderly.idle.2 hzero] at hs
      cases hs
    rw [Option.eq_none_iff_forall_ne_some]
    simp only [ne_eq, Ledger.finished?_eq_some_iff hpending, hs, Option.some.injEq]
    constructor
    · intro hother
      have hne : w.ledger.issued ≠ id := fun hid => hother s ⟨rfl, hnumber.trans hid⟩
      omega
    · rintro hid t ⟨rfl, ht⟩
      have heq : w.ledger.issued = id := hnumber.symm.trans ht
      omega

/-! ## What a caller gets -/

/-- A session that has come to its end.  Its output is what the pump of its run took, which is all
that the run says, or nothing if the run could not be started; and the session stays as it is until
another run begins. -/
structure IsFinal (start : Workbench) (steps : List Step) (w : Workbench) (s : Session) : Prop where
  finished : s.state.isFinished = true
  output : s.output = (start.history (pumped s.id) steps).filterMap Event.entry?
  complete : ∀ code, s.state = .completed code →
    start.history (said s.id) steps = start.history (pumped s.id) steps ∧
      ∀ more w', w.steps? more = some w' → w.history (said s.id) more = []
  silent : ∀ cause, s.state = .failed cause → start.history (pumped s.id) steps = []
  no_pump : w.step? (.pump s.id) = none
  stays : ∀ more w', (∀ script hitch, .run script hitch ∉ more) → w.steps? more = some w' →
    w'.ledger.session = some s

/-- A session that a caller gets is final. -/
theorem isFinal_of_finished? (h : (new machine plan).steps? steps = some w) {id : SessionId}
    {s : Session} (hs : w.ledger.finished? id = some s) : IsFinal (new machine plan) steps w s := by
  obtain ⟨hsession, hid⟩ := Option.filter_eq_some_iff.1 hs
  rw [Bool.and_eq_true] at hid
  have hfinished := hid.2
  have hover : s.state ≠ .running := by
    intro hrunning
    rw [hrunning] at hfinished
    cases hfinished
  have hmirrors := mirrors h
  have hfollows := hmirrors.follows s hsession
  refine ⟨hfinished, hfollows.1, ?_, ?_, hmirrors.no_pump h hsession hover, ?_⟩
  · intro code hcompleted
    have hl := hmirrors.listening hsession (by simp [Session.isHeard, hcompleted])
    exact said_of_exited h hl ((hfollows.completed_iff code).1 hcompleted)
  · intro cause hfailed
    have hstate := hfollows.2
    rw [hfailed] at hstate
    exact hstate
  · intro more w' hruns hmore
    obtain ⟨t, ht, hst⟩ := precedes_steps hruns hmore hsession
    rw [ht, hst.ended hover]

/-- Waiting for a session is answered correctly and never forgotten, for every number, whether a run
of that number has begun or not.  The bell rings in every step that ends a session in progress, also
in the one in which another run supersedes it, and once more if that run cannot be started.  A
caller that comes gets no answer exactly if the session is the current one and running.  From then
on it can look exactly when that is no longer so; it gets its answer when it looks, nothing else
happens to it, and it can look as long as it has not.  An answer is kept, and is what the ledger had
for the caller at some moment at which it did not have to wait.  What the ledger has for it then is
nothing if no run of that number has begun or a later one has, and else the current session, which
has come to its end and stays as it is until another run begins. -/
theorem wait_answers (h : (new machine plan).steps? steps = some w) :
    let start := new machine plan
    (∀ id, w.ledger.isPending id = true ↔
      ∃ s, w.ledger.session = some s ∧ s.id = id ∧ s.state = .running) ∧
    (∀ x w' id, w.step? x = some w' → w.ledger.isPending id = true →
      w'.ledger.isPending id = false → w.ledger.bell < w'.ledger.bell) ∧
    (∀ script cause, w.ledger.bell < (w.ledger.supersede script).bell ∧
      (w.ledger.supersede script).bell < (w.ledger.enter script (.error cause)).bell) ∧
    (∀ id, ∃ c : Caller, w.step? (.await id) = some { w with callers := w.callers ++ [c] } ∧
      c.id = id ∧
      c.answer = if w.ledger.isPending id then none else some (w.ledger.finished? id)) ∧
    (∀ i (c : Caller), w.callers[i]? = some c → c.answer = none →
      ((w.step? (.look i)).isSome = true ↔ w.ledger.isPending c.id = false) ∧
      (∀ w', w.step? (.look i) = some w' →
        w'.callers[i]? = some { c with answer := some (w.ledger.finished? c.id) }) ∧
      ∀ more w', .look i ∉ more → w.steps? more = some w' →
        w'.callers[i]? = some c ∧
        (w.ledger.isPending c.id = false → (w'.step? (.look i)).isSome = true)) ∧
    (∀ i (c : Caller), w.callers[i]? = some c → c.answer ≠ none →
      start.GotAnswer steps i c ∧
      ∀ more w', w.steps? more = some w' → w'.callers[i]? = some c) ∧
    (∀ id, w.ledger.isPending id = false →
      (w.ledger.finished? id = none ↔
        (¬ ∃ script, (id, script) ∈ start.history begun steps) ∨
          ∃ (later : Nat) (script : Text),
            id < later ∧ (later, script) ∈ start.history begun steps) ∧
      ∀ s, w.ledger.finished? id = some s ↔ w.ledger.session = some s ∧ s.id = id) ∧
    ∀ id s, w.ledger.finished? id = some s → start.IsFinal steps w s := by
  intro start
  refine ⟨fun id => Ledger.isPending_iff, ?_, ?_, ?_, ?_, ?_, ?_,
    fun id s => isFinal_of_finished? h⟩
  · intro x w' id hx hpending hover
    have hheralds := heralds_step hx
    refine Nat.lt_of_le_of_ne hheralds.bell ?_
    intro hsame
    rw [hheralds.quiet hsame.symm, hpending] at hover
    cases hover
  · intro script cause
    obtain ⟨hfirst, hboth⟩ := w.ledger.bell_enter script (.error cause)
    rw [hfirst, hboth]
    exact ⟨Nat.lt_succ_self _, Nat.lt_succ_self _⟩
  · intro id
    refine ⟨look w.ledger ⟨id, 0, none⟩, rfl, ?_⟩
    unfold look
    split <;> exact ⟨rfl, rfl⟩
  · intro i c hc hanswer
    refine ⟨isSome_look_iff h hc hanswer, fun w' hx => (caller_of_look h hc hx).2.2, ?_⟩
    intro more w' hlook hmore
    have hstill := caller_of_not_looking hc hlook hmore
    refine ⟨hstill, ?_⟩
    intro hpending
    have hissued := (attentive h c (List.mem_of_getElem? hc) hanswer).issued
    exact (isSome_look_iff (Schedule.after?_trans h hmore) hstill hanswer).2
      (not_isPending_of_steps hissued hpending hmore)
  · intro i c hc hanswer
    exact ⟨gotAnswer h i c hc hanswer, fun more w' => caller_of_answered h hc hanswer⟩
  · intro id hpending
    exact ⟨finished?_eq_none_iff h hpending, fun s => Ledger.finished?_eq_some_iff hpending⟩

/-- One caller waits for a run that is superseded, one for the run that supersedes it, and one for a
run that never begins. -/
def threeCallers : List Step :=
  [.run ['a'] none, .await 1, .run ['b'] none, .await 2, .look 0, .inside 2 (.write .stderr [122]),
    .inside 2 (.finish (.exited 3)), .inside 2 (.read .stderr 1), .inside 2 (.readEnd .stderr),
    .inside 2 (.send .stderr), .inside 2 (.readEnd .stdout), .inside 2 .join, .inside 2 .poll,
    .inside 2 .report, .pump 2, .pump 2, .look 1, .await 7]

/-- The first caller gets nothing, the second the session with its line and its code, and the third
nothing. -/
theorem wait_answers_three_callers :
    ∃ w, desk.steps? threeCallers = some w ∧
      w.callers.map (·.answer) = [some none,
        some (some ⟨2, ['b'], .completed (some 3), [.stderr (.plain ['z'])]⟩), some none] ∧
      desk.IsFinal threeCallers w ⟨2, ['b'], .completed (some 3), [.stderr (.plain ['z'])]⟩ := by
  have hend : (desk.steps? threeCallers).isSome = true := by decide +kernel
  obtain ⟨w, hw⟩ := Option.isSome_iff_exists.1 hend
  have hanswers : w.callers.map (·.answer) = [some none,
      some (some ⟨2, ['b'], .completed (some 3), [.stderr (.plain ['z'])]⟩), some none] :=
    Schedule.eq_of_map_after? (f := fun w : Workbench => w.callers.map (·.answer)) hw
      (by decide +kernel)
  have hfound : w.ledger.finished? 2 =
      some ⟨2, ['b'], .completed (some 3), [.stderr (.plain ['z'])]⟩ :=
    Schedule.eq_of_map_after? (f := fun w : Workbench => w.ledger.finished? 2) hw
      (by decide +kernel)
  obtain ⟨-, -, -, -, -, -, -, hfinal⟩ := wait_answers hw
  exact ⟨w, hw, hanswers, hfinal 2 _ hfound⟩

end Workbench

end ScriptWorkbench
