import ScriptWorkbench.Proofs.Session.UpdateLog

/-!
# Notices at any time

A ledger does not rely on the runs to behave.  `Workbench.Act` adds to the steps of a workbench
notices of any run: of the current one, of one that was superseded, of one that never began, in any
order, lines and further exits after an exit among them.  Whatever comes, a session only goes on as
`Session.Precedes` says until the next run takes its place (`Workbench.withstands_notices`).
-/

set_option autoImplicit false

namespace ScriptWorkbench

namespace Session

/-- What can become of a session as long as no other run takes its place. -/
structure Precedes (s t : Session) : Prop where
  id : t.id = s.id
  script : t.script = s.script
  output : s.output <+: t.output
  state : t.state = s.state ∨ s.state = .running ∧ ∃ code, t.state = .completed code
  ended : s.state ≠ .running → t = s

/-- A session precedes itself. -/
theorem Precedes.refl (s : Session) : s.Precedes s :=
  ⟨rfl, rfl, List.prefix_refl _, Or.inl rfl, fun _ => rfl⟩

/-- What precedes a session precedes all that it precedes. -/
theorem Precedes.trans {s t u : Session} (hst : s.Precedes t) (htu : t.Precedes u) :
    s.Precedes u := by
  refine ⟨htu.id.trans hst.id, htu.script.trans hst.script, hst.output.trans htu.output, ?_, ?_⟩
  · rcases hst.state with hsame | ⟨hrunning, code, hcode⟩
    · rw [← hsame]
      exact htu.state
    · -- a completed session stays as it is
      have hu : u = t := htu.ended (by simp [hcode])
      exact Or.inr ⟨hrunning, code, by rw [hu, hcode]⟩
  · intro hended
    have ht := hst.ended hended
    rw [← ht]
    exact htu.ended (by rwa [ht])

end Session

namespace Ledger

/-- Whether a move enters a run. -/
def Move.isEnter : Move → Bool
  | .enter _ _ => true
  | _ => false

variable {l l' : Ledger} {moves : List Move}

/-- A notice is taken in exactly if it is for the current session and that is running. -/
theorem apply_snd (l : Ledger) (id : SessionId) (n : Notice) :
    (l.apply id n).2 = l.isPending id := by
  unfold apply isPending
  cases l.running? id with
  | none => rfl
  | some s => cases n <;> rfl

/-- Whatever happens to a ledger but a new run leaves the session there and lets it go on. -/
theorem precedes_move {m : Move} (hm : m.isEnter = false) {s : Session} (hs : l.session = some s) :
    ∃ t, (l.move m).session = some t ∧ s.Precedes t := by
  cases m with
  | enter script started => cases hm
  | notice id n =>
    cases hpending : l.isPending id with
    | false =>
      rw [move, apply_of_not_isPending hpending]
      exact ⟨s, hs, .refl s⟩
    | true =>
      obtain ⟨t, ht, rfl, hrunning⟩ := isPending_iff.1 hpending
      rw [hs, Option.some.injEq] at ht
      subst ht
      cases n with
      | output entry =>
        rw [move, apply_output hs hrunning]
        exact ⟨_, rfl, rfl, rfl, List.prefix_append _ _, Or.inl rfl, absurd hrunning⟩
      | exited code =>
        rw [move, apply_exited hs hrunning]
        exact ⟨_, rfl, rfl, rfl, List.prefix_refl _, Or.inr ⟨hrunning, code, rfl⟩, absurd hrunning⟩
  | subscribe | unsubscribe i | empty i => exact ⟨s, hs, .refl s⟩

/-- As long as no run is entered, the current session precedes what becomes of it. -/
theorem precedes_moves (h : l.moves? moves = some l') (hmoves : moves.countP Move.isEnter = 0)
    {s : Session} (hs : l.session = some s) : ∃ t, l'.session = some t ∧ s.Precedes t := by
  induction moves generalizing l s with
  | nil =>
    cases h
    exact ⟨s, hs, .refl s⟩
  | cons m moves ih =>
    rw [List.countP_eq_zero, List.forall_mem_cons, ← List.countP_eq_zero,
      Bool.not_eq_true] at hmoves
    obtain ⟨t, ht, hst⟩ := precedes_move hmoves.1 hs
    obtain ⟨u, hu, htu⟩ := ih h hmoves.2 ht
    exact ⟨u, hu, hst.trans htu⟩

/-- The numbers that were given are as many as the runs that were entered. -/
theorem issued_moves (h : l.moves? moves = some l') :
    l'.issued = l.issued + moves.countP Move.isEnter := by
  induction moves generalizing l with
  | nil =>
    cases h
    rfl
  | cons m moves ih =>
    rw [ih h, issued_move, List.countP_cons]
    cases m with
    | enter script started =>
      simp only [Move.isEnter, if_true]
      omega
    | notice id n | subscribe | unsubscribe i | empty i => simp [Move.isEnter]

/-- The session is that of the last run, and it has no output if the run failed. -/
structure IsOrderly (l : Ledger) : Prop where
  idle : l.session = none ↔ l.issued = 0
  number : ∀ s, l.session = some s → s.id = l.issued
  failed : ∀ s cause, l.session = some s → s.state = .failed cause → s.output = []

/-- A ledger is orderly once a run has been entered. -/
theorem isOrderly_enter (l : Ledger) (script : Text) (started : Except Failure Unit) :
    (l.enter script started).IsOrderly := by
  have hissued := l.issued_enter script started
  refine ⟨?_, ?_, ?_⟩
  · rw [session_enter, hissued]
    simp
  · intro s hs
    rw [session_enter, Option.some.injEq] at hs
    rw [← hs, hissued]
  · intro s cause hs _
    rw [session_enter, Option.some.injEq] at hs
    rw [← hs]

/-- No move brings an orderly ledger into disorder. -/
theorem IsOrderly.move (hl : l.IsOrderly) (m : Move) : (l.move m).IsOrderly := by
  have hkeep : m.isEnter = false → (l.move m).IsOrderly := by
    intro hm
    have hissued : (l.move m).issued = l.issued := by
      rw [issued_move]
      cases m <;> first | rfl | cases hm
    cases hs : l.session with
    | none =>
      have hnone : (l.move m).session = none := by
        cases m with
        | enter script started => cases hm
        | notice id n => simp [Ledger.move, apply, running?, hs]
        | subscribe | unsubscribe i | empty i => exact hs
      refine ⟨?_, by simp [hnone], by simp [hnone]⟩
      rw [hissued, ← hl.idle, hs, hnone]
    | some s =>
      obtain ⟨t, ht, hst⟩ := precedes_move hm hs
      refine ⟨?_, ?_, ?_⟩
      · rw [hissued, ← hl.idle, ht, hs]
        simp
      · intro t' ht'
        rw [ht, Option.some.injEq] at ht'
        rw [← ht', hst.id, hissued, hl.number s hs]
      · intro t' cause ht' hfailed
        rw [ht, Option.some.injEq] at ht'
        subst ht'
        -- a session does not fail later on, so it had failed already
        have hbefore : s.state = .failed cause := by
          rcases hst.state with hsame | ⟨-, code, hcode⟩
          · rw [← hsame, hfailed]
          · rw [hcode] at hfailed
            cases hfailed
        rw [hst.ended (by simp [hbefore])]
        exact hl.failed s cause hs hbefore
  cases m with
  | enter script started => exact isOrderly_enter l script started
  | notice id n | subscribe | unsubscribe i | empty i => exact hkeep rfl

/-- No row of moves brings an orderly ledger into disorder. -/
theorem IsOrderly.after (hl : l.IsOrderly) (h : l.moves? moves = some l') : l'.IsOrderly := by
  refine Schedule.invariant ?_ hl h
  intro l m l' hl hm
  cases hm
  exact hl.move m

/-- A ledger without a run is orderly. -/
theorem isOrderly_empty : ({} : Ledger).IsOrderly :=
  ⟨by simp, by simp, by simp⟩

/-- The only session of an orderly ledger is that of the last run. -/
theorem IsOrderly.session_id (hl : l.IsOrderly) :
    l.session.map (·.id) = if l.issued = 0 then none else some l.issued := by
  cases hs : l.session with
  | none => rw [if_pos (hl.idle.1 hs), Option.map_none]
  | some s =>
    have hne : l.issued ≠ 0 := by
      rw [Ne, ← hl.idle, hs]
      simp
    rw [if_neg hne, Option.map_some, hl.number s hs]

/-- A session is followed by one that has the number of the runs begun since, and that is still the
same session if there were none. -/
theorem IsOrderly.session_later (hl : l.IsOrderly) (h : l.moves? moves = some l') {s : Session}
    (hs : l.session = some s) :
    ∃ t, l'.session = some t ∧ t.id = s.id + moves.countP Move.isEnter ∧
      (moves.countP Move.isEnter = 0 → s.Precedes t) := by
  have hl' := hl.after h
  have hissued := issued_moves h
  cases ht : l'.session with
  | none =>
    -- the runs that were begun are not undone
    have hzero : l.issued = 0 := by
      have := hl'.idle.1 ht
      omega
    rw [← hl.idle, hs] at hzero
    cases hzero
  | some t =>
    refine ⟨t, rfl, ?_, ?_⟩
    · rw [hl'.number t ht, hl.number s hs, hissued]
    · intro hnone
      obtain ⟨t', ht', hst⟩ := precedes_moves h hnone hs
      rw [ht, Option.some.injEq] at ht'
      rwa [ht']

end Ledger

namespace Workbench

/-! ## A workbench whose runs say anything -/

/-- What can happen to a workbench whose runs do not behave. -/
inductive Act
  | step (x : Step)
  /-- A notice of any run arrives. -/
  | notice (id : SessionId) (n : Notice)

/-- What an act makes of a workbench, if it is possible. -/
def act? (w : Workbench) : Act → Option Workbench
  | .step x => w.step? x
  | .notice id n => some { w with ledger := (w.ledger.apply id n).1 }

/-- What a row of acts makes of a workbench, if each of them is possible in its turn. -/
abbrev acts? (w : Workbench) (acts : List Act) : Option Workbench :=
  Schedule.after? act? w acts

/-- Whether an act begins a run. -/
def Act.isRun : Act → Bool
  | .step (.run _ _) => true
  | _ => false

/-- What an act does to the ledger. -/
def actMoves (w : Workbench) : Act → List Ledger.Move
  | .step x => w.moves x
  | .notice id n => [.notice id n]

/-- The updates that an act announces. -/
def actAnnounced (w : Workbench) : Act → List Update
  | .step x => w.announced x
  | .notice id n => if w.ledger.isPending id then [Update.ofNotice id n] else []

variable {machine : Machine} {plan : Plan} {acts : List Act} {w w' : Workbench}

/-- An act on a workbench is a row of moves of its ledger. -/
theorem ledger_act (w : Workbench) (a : Act) (w' : Workbench) (h : w.act? a = some w') :
    w.ledger.moves? (w.actMoves a) = some w'.ledger := by
  cases a with
  | step x => exact ledger_step w x w' h
  | notice id n =>
    cases h
    rfl

/-- A row of acts on a workbench is a row of moves of its ledger. -/
theorem ledger_acts (h : w.acts? acts = some w') :
    w.ledger.moves? (Schedule.along act? actMoves w acts) = some w'.ledger :=
  Schedule.after?_part ledger_act h

/-- What acts announce is what their moves announce. -/
theorem along_actAnnounced (h : w.acts? acts = some w') :
    Schedule.along act? actAnnounced w acts =
      w.ledger.history Ledger.announced (Schedule.along act? actMoves w acts) := by
  refine Schedule.along_part ledger_act ?_ h
  intro w a w' ha
  cases a with
  | step x => exact announced_step ha
  | notice id n => exact (List.append_nil _).symm

/-- The acts that run a script are the moves that enter a run. -/
theorem countP_actMoves (h : w.acts? acts = some w') :
    (Schedule.along act? actMoves w acts).countP Ledger.Move.isEnter = acts.countP Act.isRun := by
  induction acts generalizing w with
  | nil => rfl
  | cons a acts ih =>
    obtain ⟨v, hv, hrest⟩ := Option.bind_eq_some_iff.1 h
    have hone : (w.actMoves a).countP Ledger.Move.isEnter = if a.isRun then 1 else 0 := by
      cases a with
      | notice id n => rfl
      | step x =>
        cases x with
        | pump id =>
          have hnone : ∀ es : List Event,
              (es.map fun e => Ledger.Move.notice id (.ofEvent e)).countP
                Ledger.Move.isEnter = 0 := by
            intro es
            simp [List.countP_eq_zero, Ledger.Move.isEnter]
          exact hnone _
        | run script hitch | cancel | subscribe | unsubscribe i | empty i | await i | look i
        | inside i y | meddle machine | permit reply => rfl
    simp only [Schedule.along, hv, List.countP_append, ih hrest, hone, List.countP_cons]
    omega

/-- Whatever notices arrive, and in whatever order, the `n`-th run gets the number `n`, which is the
answer to the one who runs it, and the only session.  A notice is taken in exactly if it bears the
number of the current session and that is running; one that is not leaves the whole workbench as it
was.  Until the next run takes its place a session keeps its number and its script, its output only
grows at the end, and it goes from running to completed at most once, after which nothing of it
changes; one that failed has no output.  The log tells the same of every session: it is running,
then it has output, then it has at most one end. -/
theorem withstands_notices (h : (new machine plan).acts? acts = some w) :
    let runs := acts.countP Act.isRun
    let log := Schedule.along act? actAnnounced (new machine plan) acts
    (w.ledger.issued = runs ∧
      w.ledger.session.map (·.id) = if runs = 0 then none else some runs) ∧
    (∀ script hitch, ∃ w', w.submit script hitch = (runs + 1, w') ∧
      w.act? (.step (.run script hitch)) = some w' ∧
      w'.ledger.issued = runs + 1 ∧ w'.ledger.session = some ⟨runs + 1, script,
        match w.started script hitch with
        | .ok _ => .running
        | .error cause => .failed cause, []⟩) ∧
    (∃ w', w.act? (.step .cancel) = some w' ∧ w'.ledger = w.ledger) ∧
    (∀ id n, (w.ledger.apply id n).2 = true ↔
      ∃ s, w.ledger.session = some s ∧ s.id = id ∧ s.state = .running) ∧
    (∀ id n, (w.ledger.apply id n).2 = false →
      (w.ledger.apply id n).1 = w.ledger ∧ w.act? (.notice id n) = some w ∧
        w.actAnnounced (.notice id n) = []) ∧
    (∀ s cause, w.ledger.session = some s → s.state = .failed cause → s.output = []) ∧
    (∀ more w', w.acts? more = some w' → ∀ s, w.ledger.session = some s →
      ∃ t, w'.ledger.session = some t ∧ t.id = s.id + more.countP Act.isRun ∧
        (more.countP Act.isRun = 0 → s.Precedes t)) ∧
    (∀ s, w.ledger.session = some s → log.filter (fun u => u.id = s.id) = s.updates) ∧
    (∀ id, 1 ≤ id → id ≤ runs → ∃ (entries : List Entry) (ends : List SessionState),
      log.filter (fun u => u.id = id) =
        .state id .running :: (entries.map (.output id) ++ ends.map (.state id)) ∧
      ends.length ≤ 1 ∧ ∀ st ∈ ends, st.isFinished = true) := by
  intro runs log
  have hmoves := ledger_acts h
  have horderly := Ledger.isOrderly_empty.after hmoves
  have hissued : w.ledger.issued = runs := by
    rw [Ledger.issued_moves hmoves, countP_actMoves h]
    exact Nat.zero_add runs
  have hlog : log = ({} : Ledger).history Ledger.announced _ := along_actAnnounced h
  refine ⟨⟨hissued, ?_⟩, ?_, ⟨w.cancel, rfl, w.killCurrent_frame.1⟩, ?_, ?_, horderly.failed, ?_,
    ?_, ?_⟩
  · rw [← hissued]
    exact horderly.session_id
  · intro script hitch
    have hanswer : (w.submit script hitch).1 = runs + 1 := by rw [submit_fst, hissued]
    refine ⟨w.run script hitch, Prod.ext hanswer rfl, rfl, ?_, ?_⟩
    · rw [ledger_run, ← hissued, Ledger.issued_enter]
    · have hsession := Ledger.session_enter w.ledger script (w.started script hitch)
      rw [hissued] at hsession
      rw [ledger_run]
      exact hsession
  · intro id n
    rw [Ledger.apply_snd, Ledger.isPending_iff]
  · intro id n hrefused
    rw [Ledger.apply_snd] at hrefused
    simp [act?, actAnnounced, Ledger.apply_of_not_isPending hrefused, hrefused]
  · intro more w' hmore s hs
    rw [← countP_actMoves hmore]
    exact horderly.session_later (ledger_acts hmore) hs
  · intro s hs
    rw [hlog]
    exact Ledger.filter_announced hmoves (List.mem_append_right _ (by simp [hs]))
  · intro id hpos hid
    rw [hlog]
    exact Ledger.announced_of_issued hmoves hpos (by rwa [hissued])

/-- Notices come for a run that never began, after the exit of the first run, and for a second run
that could not be started. -/
def unruly : List Act :=
  [.step (.run ['a'] none), .notice 7 (.exited none), .notice 1 (.output (.stdout ['x'])),
    .notice 1 (.exited (some 3)), .notice 1 (.output (.stdout ['y'])), .notice 1 (.exited none),
    .step (.run ['b'] (some (.pipe .stdout))), .notice 2 (.output (.stdout ['z'])),
    .notice 1 (.exited none), .step .cancel]

/-- Notices that come too early, too late or twice change nothing. -/
theorem withstands_notices_unruly :
    ∃ u v w, desk.acts? (unruly.take 4) = some u ∧ u.acts? ((unruly.drop 4).take 2) = some v ∧
      desk.acts? unruly = some w ∧
      u.ledger.session = some ⟨1, ['a'], .completed (some 3), [.stdout ['x']]⟩ ∧
      v.ledger.session = u.ledger.session ∧
      w.ledger.issued = 2 ∧ (w.ledger.apply 2 (.exited none)).2 = false ∧
      (w.ledger.apply 2 (.exited none)).1 = w.ledger := by
  have hfirst : (desk.acts? (unruly.take 4)).isSome = true := by decide +kernel
  have hnext : ((desk.acts? (unruly.take 4)).bind fun u =>
      u.acts? ((unruly.drop 4).take 2)).isSome = true := by decide +kernel
  have hend : (desk.acts? unruly).isSome = true := by decide +kernel
  obtain ⟨u, hu⟩ := Option.isSome_iff_exists.1 hfirst
  rw [hu] at hnext
  obtain ⟨v, hv⟩ := Option.isSome_iff_exists.1 hnext
  obtain ⟨w, hw⟩ := Option.isSome_iff_exists.1 hend
  have hsession : u.ledger.session = some ⟨1, ['a'], .completed (some 3), [.stdout ['x']]⟩ :=
    Schedule.eq_of_map_after? (f := fun u : Workbench => u.ledger.session) hu (by decide +kernel)
  obtain ⟨-, -, -, -, -, -, hlater, -, -⟩ := withstands_notices hu
  obtain ⟨t, ht, -, hst⟩ := hlater _ v hv _ hsession
  obtain ⟨⟨hissued, -⟩, -, -, htaken, hrefused, -, -, -, -⟩ := withstands_notices hw
  have hfailed : w.ledger.session =
      some ⟨2, ['b'], .failed (.launch (.missingPipe .stdout)), []⟩ :=
    Schedule.eq_of_map_after? (f := fun w : Workbench => w.ledger.session) hw (by decide +kernel)
  have happly : (w.ledger.apply 2 (.exited none)).2 = false := by
    rw [← Bool.not_eq_true, htaken]
    rintro ⟨s, hs, -, hrunning⟩
    rw [hfailed, Option.some.injEq] at hs
    rw [← hs] at hrunning
    cases hrunning
  refine ⟨u, v, w, hu, hv, hw, hsession, ?_, hissued, happly, (hrefused 2 _ happly).1⟩
  rw [ht, (hst rfl).ended (by simp), hsession]

end Workbench

end ScriptWorkbench
