import ScriptWorkbench.Proofs.Session.UpdateLog

/-!
# What subscribers receive

A subscriber that stays receives every update from the moment on when it came, each once and in
order, whatever becomes of the others (`Ledger.inbox_moves`).  So all subscribers of a workbench
receive the end of one log, and the log of a workbench can be read without any of them
(`Workbench.one_log`).
-/

set_option autoImplicit false

namespace ScriptWorkbench

namespace Ledger

/-- What is published comes to the end of every inbox. -/
theorem inbox?_publish (l : Ledger) (u : Update) (i : Nat) :
    (l.publish u).inbox? i = (l.inbox? i).map (· ++ [u]) := by
  unfold inbox? publish
  rw [List.getElem?_map]
  cases l.inboxes[i]? with
  | none => rfl
  | some inbox => cases inbox <;> rfl

/-- Entering a run and taking in a notice reach every subscriber. -/
theorem inbox?_move (l : Ledger) (m : Move) (i : Nat)
    (hm : (∃ script started, m = .enter script started) ∨ ∃ id n, m = .notice id n) :
    (l.move m).inbox? i = (l.inbox? i).map (· ++ l.announced m) := by
  rcases hm with ⟨script, started, rfl⟩ | ⟨id, n, rfl⟩
  · have hfirst : (l.supersede script).inbox? i =
        (l.inbox? i).map (· ++ [.state (l.issued + 1) .running]) := by
      unfold supersede
      exact inbox?_publish _ _ i
    cases started with
    | ok _ => exact hfirst
    | error cause =>
      have hsecond : (l.enter script (.error cause)).inbox? i =
          ((l.supersede script).inbox? i).map (· ++ [.state (l.issued + 1) (.failed cause)]) := by
        unfold enter setState
        exact inbox?_publish _ _ i
      rw [move, hsecond, hfirst, Option.map_map]
      congr
      funext inbox
      simp [announced]
  · cases hpending : l.isPending id with
    | false =>
      rw [move, apply_of_not_isPending hpending]
      simp [announced, hpending]
    | true =>
      obtain ⟨s, hs, rfl, hrunning⟩ := isPending_iff.1 hpending
      have hannounced : l.announced (.notice s.id n) = [Update.ofNotice s.id n] := by
        simp [announced, hpending]
      rw [hannounced]
      cases n with
      | output entry =>
        rw [move, apply_output hs hrunning]
        exact inbox?_publish _ _ i
      | exited code =>
        rw [move, apply_exited hs hrunning]
        exact inbox?_publish _ _ i

/-- What a subscriber that stays has in its inbox, together with what a move announces, is what it
finds in the move and what it has afterwards. -/
theorem inbox_move {l : Ledger} {m : Move} {i : Nat} {inbox : List Update}
    (h : l.inbox? i = some inbox) (hm : m ≠ .unsubscribe i) :
    ∃ inbox', (l.move m).inbox? i = some inbox' ∧
      inbox ++ l.announced m = l.received i m ++ inbox' := by
  cases m with
  | enter script started =>
    refine ⟨inbox ++ l.announced (.enter script started), ?_, rfl⟩
    rw [inbox?_move l _ i (Or.inl ⟨script, started, rfl⟩), h]
    rfl
  | notice id n =>
    refine ⟨inbox ++ l.announced (.notice id n), ?_, rfl⟩
    rw [inbox?_move l _ i (Or.inr ⟨id, n, rfl⟩), h]
    rfl
  | subscribe =>
    refine ⟨inbox, ?_, by simp [announced, received]⟩
    have hlt : i < l.inboxes.length := by
      by_cases hi : i < l.inboxes.length
      · exact hi
      · rw [inbox?, List.getElem?_eq_none (Nat.le_of_not_lt hi)] at h
        simp at h
    have hinbox : l.inboxes[i]?.join = some inbox := h
    rw [move, inbox?, subscribe, List.getElem?_append_left hlt]
    exact hinbox
  | unsubscribe j =>
    refine ⟨inbox, ?_, by simp [announced, received]⟩
    have hne : j ≠ i := by
      intro heq
      exact hm (heq ▸ rfl)
    have hinbox : l.inboxes[i]?.join = some inbox := h
    rw [move, inbox?, unsubscribe, List.getElem?_set_ne hne]
    exact hinbox
  | empty j =>
    have hinbox : l.inboxes[i]?.join = some inbox := h
    by_cases hj : j = i
    · subst hj
      refine ⟨[], ?_, by simp [announced, received, h]⟩
      have hslot : l.inboxes[j]? = some (some inbox) := Option.join_eq_some_iff.1 hinbox
      simp [move, inbox?, empty, hslot]
    · refine ⟨inbox, ?_, by simp [announced, received, hj]⟩
      have hother :
          (l.inboxes.modify j fun inbox => inbox.map fun _ => [])[i]? = l.inboxes[i]? := by
        simp [hj]
      rw [move, inbox?, empty, hother]
      exact hinbox

/-- A subscriber that stays receives every update that is announced, each once and in order. -/
theorem inbox_moves {moves : List Move} {l l' : Ledger} {i : Nat} {inbox : List Update}
    (h : l.moves? moves = some l') (hinbox : l.inbox? i = some inbox)
    (hstay : .unsubscribe i ∉ moves) :
    ∃ inbox', l'.inbox? i = some inbox' ∧
      inbox ++ l.history announced moves = l.history (received i) moves ++ inbox' := by
  induction moves generalizing l inbox with
  | nil =>
    cases h
    exact ⟨inbox, hinbox, by simp [Schedule.along]⟩
  | cons m moves ih =>
    rw [List.mem_cons, not_or] at hstay
    obtain ⟨inbox₁, hinbox₁, hfirst⟩ := inbox_move hinbox (Ne.symm hstay.1)
    have hrest : (l.move m).moves? moves = some l' := h
    obtain ⟨inbox₂, hinbox₂, hlater⟩ := ih hrest hinbox₁ hstay.2
    refine ⟨inbox₂, hinbox₂, ?_⟩
    have halong : ∀ see : Ledger → Move → List Update,
        l.history see (m :: moves) = see l m ++ (l.move m).history see moves := fun _ => rfl
    rw [halong, halong, ← List.append_assoc, hfirst, List.append_assoc, hlater,
      ← List.append_assoc]

/-- A new subscriber has nothing in its inbox. -/
theorem inbox?_subscribe (l : Ledger) : l.subscribe.inbox? l.inboxes.length = some [] := by
  simp [inbox?, subscribe]

end Ledger

namespace Workbench

/-- The sessions of a schedule: those that were replaced on the way, and the current one. -/
def sessions (start : Workbench) (steps : List Step) (w : Workbench) : List Session :=
  start.ledger.history Ledger.retired (start.history moves steps) ++ w.ledger.session.toList

variable {machine : Machine} {plan : Plan} {steps : List Step} {w : Workbench}

/-- All that was announced is what each session, one after the other, has to tell. -/
theorem announced_eq_sessions (h : (new machine plan).steps? steps = some w) :
    (new machine plan).history announced steps =
      ((new machine plan).sessions steps w).flatMap Session.updates := by
  rw [history_announced h]
  exact Ledger.log_eq (ledger_steps h)

/-- The sessions are numbered from one, in their order. -/
theorem ids_sessions (h : (new machine plan).steps? steps = some w) :
    ((new machine plan).sessions steps w).map (·.id) = List.range' 1 w.ledger.issued :=
  Ledger.ids_eq (ledger_steps h)

/-- What the log says about one session. -/
theorem filter_announced (h : (new machine plan).steps? steps = some w) {s : Session}
    (hs : s ∈ (new machine plan).sessions steps w) :
    ((new machine plan).history announced steps).filter (fun u => u.id = s.id) = s.updates := by
  rw [history_announced h]
  exact Ledger.filter_announced (ledger_steps h) hs

/-- A session that a run replaces is one of the sessions of the schedule. -/
theorem mem_sessions_of_replaced {a b : List Step} {script : Text} {hitch : Option Hitch}
    {start u : Workbench} (hu : start.steps? a = some u) {s : Session}
    (hs : u.ledger.session = some s) :
    s ∈ start.sessions (a ++ .run script hitch :: b) w := by
  have hmoves : start.history moves (a ++ .run script hitch :: b) =
      start.history moves a ++ u.history moves (.run script hitch :: b) :=
    Schedule.along_append hu _
  rw [sessions, hmoves, Ledger.history, Schedule.along_append (ledger_steps hu)]
  refine List.mem_append_left _ (List.mem_append_right _ ?_)
  simp [history, Schedule.along, step?, moves, Ledger.step?, Ledger.retired, hs]

/-- Whoever subscribed and did not go received the updates that were announced since then, each once
and in order, and still has those that it did not look at. -/
theorem received_since {a b : List Step} {start u : Workbench}
    (h : start.steps? (a ++ .subscribe :: b) = some w) (hu : start.steps? a = some u)
    (hstay : .unsubscribe u.ledger.inboxes.length ∉ b) :
    ∃ inbox, w.ledger.inbox? u.ledger.inboxes.length = some inbox ∧
      u.history (received u.ledger.inboxes.length) (.subscribe :: b) ++ inbox =
        u.history announced (.subscribe :: b) := by
  have hrest : u.steps? (.subscribe :: b) = some w := by
    have hboth := h
    unfold steps? at hboth hu
    rw [Schedule.after?_append, hu] at hboth
    exact hboth
  rw [history_received _ hrest, history_announced hrest]
  -- the first of the moves lets the subscriber in, the others find it there
  let entered : Workbench := { u with ledger := u.ledger.subscribe }
  have hledger : entered.ledger.moves? (entered.history moves b) = some w.ledger :=
    ledger_steps hrest
  have hgone : Ledger.Move.unsubscribe u.ledger.inboxes.length ∉ entered.history moves b := by
    intro hmem
    obtain ⟨x, hx, v, hv⟩ := Schedule.exists_of_mem_along hmem
    cases x <;> simp [moves] at hv
    subst hv
    exact hstay hx
  obtain ⟨inbox, hinbox, hlog⟩ := Ledger.inbox_moves hledger u.ledger.inbox?_subscribe hgone
  exact ⟨inbox, hinbox, hlog.symm⟩

/-- The log is ordered by the numbers of the runs. -/
theorem announced_pairwise (h : (new machine plan).steps? steps = some w) :
    (((new machine plan).history announced steps).map Update.id).Pairwise (· ≤ ·) := by
  have hids : (((new machine plan).sessions steps w).map (·.id)).Pairwise (· < ·) := by
    rw [ids_sessions h]
    exact List.pairwise_lt_range'
  rw [announced_eq_sessions h, List.pairwise_map, List.pairwise_flatMap]
  refine ⟨?_, ?_⟩
  · intro s _
    refine List.pairwise_of_forall_mem_list ?_
    intro u hu v hv
    exact Nat.le_of_eq ((Session.id_of_mem_updates hu).trans (Session.id_of_mem_updates hv).symm)
  · rw [List.pairwise_map] at hids
    refine hids.imp ?_
    intro s t hlt u hu v hv
    rw [Session.id_of_mem_updates hu, Session.id_of_mem_updates hv]
    exact Nat.le_of_lt hlt

/-- The log speaks of runs that were given a number, and of no others. -/
theorem announced_issued (h : (new machine plan).steps? steps = some w) :
    ∀ u ∈ (new machine plan).history announced steps, 1 ≤ u.id ∧ u.id ≤ w.ledger.issued := by
  intro u hu
  rw [announced_eq_sessions h] at hu
  obtain ⟨s, hs, hmem⟩ := List.mem_flatMap.1 hu
  have hid : s.id ∈ List.range' 1 w.ledger.issued := by
    rw [← ids_sessions h]
    exact List.mem_map_of_mem hs
  rw [List.mem_range'_1, Nat.add_comm] at hid
  rw [Session.id_of_mem_updates hmem]
  exact ⟨hid.1, Nat.le_of_lt_succ hid.2⟩

/-- Of every run that was given a number the log tells the beginning, then the output, then at most
one end and nothing more. -/
theorem announced_of_issued (h : (new machine plan).steps? steps = some w) {id : SessionId}
    (hpos : 1 ≤ id) (hid : id ≤ w.ledger.issued) :
    ∃ (entries : List Entry) (ends : List SessionState),
      ((new machine plan).history announced steps).filter (fun u => u.id = id) =
        .state id .running :: (entries.map (.output id) ++ ends.map (.state id)) ∧
      ends.length ≤ 1 ∧ ∀ st ∈ ends, st.isFinished = true := by
  rw [history_announced h]
  exact Ledger.announced_of_issued (ledger_steps h) hpos hid

/-- A run that was replaced while it was running has no end in the log. -/
theorem announced_of_replaced {a b : List Step} {script : Text} {hitch : Option Hitch}
    {u : Workbench} (h : (new machine plan).steps? (a ++ .run script hitch :: b) = some w)
    (hu : (new machine plan).steps? a = some u) {s : Session} (hs : u.ledger.session = some s)
    (hrunning : s.state = .running) {st : SessionState}
    (hst : .state s.id st ∈ (new machine plan).history announced (a ++ .run script hitch :: b)) :
    st = .running := by
  have hmem : s ∈ (new machine plan).sessions (a ++ .run script hitch :: b) w :=
    mem_sessions_of_replaced hu hs
  have hupdates : Update.state s.id st ∈ s.updates := by
    rw [← filter_announced h hmem, List.mem_filter]
    exact ⟨hst, by simp [Update.id]⟩
  simpa [Session.updates, hrunning] using hupdates

/-- What the log says about a session is said by the updates that bear its number. -/
theorem filterMap_of_id {α : Type} {id : SessionId} {f : Update → Option α}
    (hf : ∀ u, u.id ≠ id → f u = none) (log : List Update) :
    log.filterMap f = (log.filter fun u => u.id = id).filterMap f := by
  rw [List.filterMap_filter]
  congr
  funext u
  by_cases hu : u.id = id
  · simp [hu]
  · simp [hu, hf u hu]

/-- Replaying the log gives the current session. -/
theorem replay_eq_session (h : (new machine plan).steps? steps = some w) {s : Session}
    (hs : w.ledger.session = some s) :
    let log := (new machine plan).history announced steps
    log.filterMap (Update.entryOf? s.id) = s.output ∧
      (log.filterMap (Update.stateOf? s.id)).getLast? = some s.state := by
  intro log
  have hmem : s ∈ (new machine plan).sessions steps w := by simp [sessions, hs]
  have hentry : ∀ u : Update, u.id ≠ s.id → u.entryOf? s.id = none := by
    intro u hu
    cases u <;> simp_all [Update.id, Update.entryOf?]
  have hstate : ∀ u : Update, u.id ≠ s.id → u.stateOf? s.id = none := by
    intro u hu
    cases u <;> simp_all [Update.id, Update.stateOf?]
  rw [filterMap_of_id hentry, filterMap_of_id hstate, filter_announced h hmem]
  exact ⟨s.filterMap_entryOf_updates, s.getLast_stateOf_updates⟩

/-- All subscribers of a workbench receive the end of one log: whoever subscribed and did not go
received the updates that were announced since then, each once and in order, and still has those
that it did not look at.  The log is ordered by the numbers of the runs.  Of each run it tells the
beginning, then the output, then at most one end and nothing more; a run that was replaced while it
was running has no end.  Replaying the log gives the current session. -/
theorem one_log (h : (new machine plan).steps? steps = some w) :
    let log := (new machine plan).history announced steps
    (∀ a b u, steps = a ++ .subscribe :: b → (new machine plan).steps? a = some u →
      let subscriber := u.ledger.inboxes.length
      .unsubscribe subscriber ∉ b →
      ∃ inbox, w.ledger.inbox? subscriber = some inbox ∧
        u.history (received subscriber) (.subscribe :: b) ++ inbox =
          u.history announced (.subscribe :: b) ∧
        (new machine plan).history announced a ++ u.history announced (.subscribe :: b) = log) ∧
    (log.map Update.id).Pairwise (· ≤ ·) ∧
    (∀ u ∈ log, 1 ≤ u.id ∧ u.id ≤ w.ledger.issued) ∧
    (∀ id, 1 ≤ id → id ≤ w.ledger.issued → ∃ (entries : List Entry) (ends : List SessionState),
      log.filter (fun u => u.id = id) =
        .state id .running :: (entries.map (.output id) ++ ends.map (.state id)) ∧
      ends.length ≤ 1 ∧ ∀ st ∈ ends, st.isFinished = true) ∧
    (∀ a b script hitch u s, steps = a ++ .run script hitch :: b →
      (new machine plan).steps? a = some u → u.ledger.session = some s → s.state = .running →
      ∀ st, .state s.id st ∈ log → st = .running) ∧
    (∀ s, w.ledger.session = some s →
      log.filterMap (Update.entryOf? s.id) = s.output ∧
        (log.filterMap (Update.stateOf? s.id)).getLast? = some s.state) := by
  intro log
  refine ⟨?_, announced_pairwise h, announced_issued h,
    fun id hpos hid => announced_of_issued h hpos hid, ?_, fun s hs => replay_eq_session h hs⟩
  · rintro a b u rfl hu subscriber hstay
    obtain ⟨inbox, hinbox, hreceived⟩ := received_since h hu hstay
    exact ⟨inbox, hinbox, hreceived, (Schedule.along_append hu _).symm⟩
  · rintro a b script hitch u s rfl hu hs hrunning st hst
    exact announced_of_replaced h hu hs hrunning hst

/-- A second run begins before the first has said everything, and a second subscriber comes between
the two lines of the first run.  The first subscriber goes while the second run is in progress. -/
def overtaken : List Step :=
  [.subscribe, .run ['a'] none, .inside 1 (.write .stdout [120, 10, 121, 10]),
    .inside 1 (.read .stdout 2), .inside 1 (.send .stdout), .pump 1, .subscribe, .run ['b'] none,
    .inside 1 (.read .stdout 2), .inside 1 (.send .stdout), .pump 1, .unsubscribe 0,
    .inside 2 (.write .stderr [122]), .inside 2 (.finish (.exited 3)), .inside 2 (.read .stderr 1),
    .inside 2 (.readEnd .stderr), .inside 2 (.send .stderr), .inside 2 (.readEnd .stdout),
    .inside 2 .join, .inside 2 .poll, .inside 2 .report, .pump 2, .empty 1, .pump 2]

/-- A run is overtaken by another, and a subscriber that came late receives the rest of the log as
announced. -/
theorem one_log_overtaken :
    ∃ w u, desk.steps? overtaken = some w ∧ desk.steps? (overtaken.take 6) = some u ∧
      desk.history announced overtaken =
        [.state 1 .running, .output 1 (.stdout ['x']), .state 2 .running,
          .output 2 (.stderr (.plain ['z'])), .state 2 (.completed (some 3))] ∧
      (∃ inbox, w.ledger.inbox? 1 = some inbox ∧
        u.history (received 1) (overtaken.drop 6) ++ inbox =
          u.history announced (overtaken.drop 6)) ∧
      (∀ st, .state 1 st ∈ desk.history announced overtaken → st = .running) ∧
      ∀ s, w.ledger.session = some s →
        (desk.history announced overtaken).filterMap (Update.entryOf? s.id) = s.output := by
  have hend : (desk.steps? overtaken).isSome = true := by decide +kernel
  have hmiddle : (desk.steps? (overtaken.take 6)).isSome = true := by decide +kernel
  have hbefore : (desk.steps? (overtaken.take 7)).isSome = true := by decide +kernel
  obtain ⟨w, hw⟩ := Option.isSome_iff_exists.1 hend
  obtain ⟨u, hu⟩ := Option.isSome_iff_exists.1 hmiddle
  obtain ⟨v, hv⟩ := Option.isSome_iff_exists.1 hbefore
  obtain ⟨hreceived, -, -, -, hreplaced, hreplay⟩ := one_log hw
  have hnumber : u.ledger.inboxes.length = 1 :=
    Schedule.eq_of_map_after? (f := fun u : Workbench => u.ledger.inboxes.length) hu
      (by decide +kernel)
  have hsession : v.ledger.session = some ⟨1, ['a'], .running, [.stdout ['x']]⟩ :=
    Schedule.eq_of_map_after? (f := fun v : Workbench => v.ledger.session) hv (by decide +kernel)
  refine ⟨w, u, hw, hu, by decide +kernel, ?_, ?_, fun s hs => (hreplay s hs).1⟩
  · have hstay : Step.unsubscribe u.ledger.inboxes.length ∉ overtaken.drop 7 := by
      rw [hnumber]
      simp [overtaken]
    obtain ⟨inbox, hinbox, hall, -⟩ :=
      hreceived (overtaken.take 6) (overtaken.drop 7) u rfl hu hstay
    rw [hnumber] at hinbox hall
    exact ⟨inbox, hinbox, hall⟩
  · exact hreplaced (overtaken.take 7) (overtaken.drop 8) ['b'] none v _ rfl hv hsession rfl

end Workbench

end ScriptWorkbench
