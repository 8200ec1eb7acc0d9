import ScriptWorkbench.Proofs.Session.Moves

/-!
# The update log

All subscribers of a ledger see the same log from the moment on when they came
(`Ledger.inbox_moves`).  The log tells of one session after the other: with every session that was
retired, and with the current one, come its beginning, its output and its end if it has come to one
(`Ledger.log_eq`).  The sessions are numbered one after the other (`Ledger.ids_eq`).  What can be
said about the log follows from these two.
-/

set_option autoImplicit false

namespace ScriptWorkbench

/-- What is announced of a session from its beginning on. -/
def Session.updates (s : Session) : List Update :=
  .state s.id .running :: (s.output.map (.output s.id) ++
    match s.state with
    | .running => []
    | .completed code => [.state s.id (.completed code)]
    | .failed cause => [.state s.id (.failed cause)])

namespace Session

/-- The updates of a session bear its number. -/
theorem id_of_mem_updates {s : Session} {u : Update} (h : u ∈ s.updates) : u.id = s.id := by
  rcases s with ⟨id, script, state, output⟩
  simp only [updates, List.mem_cons, List.mem_append, List.mem_map] at h
  rcases h with rfl | ⟨entry, -, rfl⟩ | h
  · rfl
  · rfl
  · cases state <;> simp at h <;> subst h <;> rfl

/-- The updates of numbered sessions, picked out by number. -/
theorem filter_flatMap_updates {sessions : List Session} {s : Session}
    (hnodup : (sessions.map (·.id)).Nodup) (hs : s ∈ sessions) :
    (sessions.flatMap updates).filter (fun u => u.id = s.id) = s.updates := by
  -- all updates of a session have its number, so they are kept or dropped together
  have hkeep : ∀ t : Session, t.id = s.id →
      t.updates.filter (fun u => u.id = s.id) = t.updates := by
    intro t ht
    rw [List.filter_eq_self]
    intro u hu
    simp [id_of_mem_updates hu, ht]
  have hdrop : ∀ t : Session, t.id ≠ s.id → t.updates.filter (fun u => u.id = s.id) = [] := by
    intro t ht
    rw [List.filter_eq_nil_iff]
    intro u hu
    simp [id_of_mem_updates hu, ht]
  have hnone : ∀ ts : List Session, (∀ t ∈ ts, t.id ≠ s.id) →
      (ts.flatMap updates).filter (fun u => u.id = s.id) = [] := by
    intro ts
    induction ts with
    | nil => simp
    | cons t ts ih =>
      intro hts
      rw [List.flatMap_cons, List.filter_append, hdrop t (hts t List.mem_cons_self),
        ih fun t' ht' => hts t' (List.mem_cons_of_mem t ht')]
      rfl
  induction sessions with
  | nil => simp at hs
  | cons t ts ih =>
    rw [List.map_cons, List.nodup_cons] at hnodup
    rw [List.flatMap_cons, List.filter_append]
    rcases List.mem_cons.1 hs with rfl | hts
    · have hother : ∀ t ∈ ts, t.id ≠ s.id := by
        intro t ht heq
        exact hnodup.1 (List.mem_map.2 ⟨t, ht, heq⟩)
      rw [hkeep s rfl, hnone ts hother, List.append_nil]
    · have hne : t.id ≠ s.id := by
        intro heq
        exact hnodup.1 (List.mem_map.2 ⟨s, hts, heq.symm⟩)
      rw [hdrop t hne, List.nil_append]
      exact ih hnodup.2 hts

/-- Replaying the updates of a session gives its output. -/
theorem filterMap_entryOf_updates (s : Session) :
    s.updates.filterMap (Update.entryOf? s.id) = s.output := by
  rcases s with ⟨id, script, state, output⟩
  have houtput : (output.map (Update.output id)).filterMap (Update.entryOf? id) = output := by
    induction output with
    | nil => rfl
    | cons e es ih => simp [Update.entryOf?, ih]
  have hstate : ∀ st, Update.entryOf? id (.state id st) = none := fun _ => rfl
  cases state <;> simp [updates, hstate, houtput]

/-- Replaying the updates of a session ends in its state. -/
theorem getLast_stateOf_updates (s : Session) :
    (s.updates.filterMap (Update.stateOf? s.id)).getLast? = some s.state := by
  rcases s with ⟨id, script, state, output⟩
  have houtput : (output.map (Update.output id)).filterMap (Update.stateOf? id) = [] := by
    induction output with
    | nil => rfl
    | cons e es ih => simp [Update.stateOf?]
  have hstate : ∀ st, Update.stateOf? id (.state id st) = some st := by
    intro st
    simp [Update.stateOf?]
  cases state <;> simp [updates, hstate, houtput]

end Session

namespace Ledger

/-! ## The log tells of one session after the other -/

/-- A move announces what has to be added to the updates of the session before, and of the one that
takes its place. -/
theorem updates_move (l : Ledger) (m : Move) :
    l.session.toList.flatMap Session.updates ++ l.announced m =
      (l.retired m ++ (l.move m).session.toList).flatMap Session.updates := by
  cases m with
  | enter script started =>
    rw [move, session_enter, List.flatMap_append]
    cases started <;> simp [retired, announced, Session.updates]
  | notice id n =>
    cases hpending : l.isPending id with
    | false => simp [move, retired, announced, hpending, apply_of_not_isPending hpending]
    | true =>
      obtain ⟨s, hs, rfl, hrunning⟩ := isPending_iff.1 hpending
      cases n with
      | output entry =>
        rw [move, apply_output hs hrunning]
        simp [retired, announced, hpending, hs, publish, Session.updates, hrunning, Update.ofNotice]
      | exited code =>
        rw [move, apply_exited hs hrunning]
        simp [retired, announced, hpending, hs, publish, ring, Session.updates, hrunning,
          Update.ofNotice]
  | subscribe | unsubscribe i | empty i => simp [retired, announced, move, subscribe, unsubscribe,
      empty]

/-- The log is the updates of the sessions that were retired and of the current one. -/
theorem log_eq {moves : List Move} {l : Ledger} (h : ({} : Ledger).moves? moves = some l) :
    ({} : Ledger).history announced moves =
      (({} : Ledger).history retired moves ++ l.session.toList).flatMap Session.updates := by
  refine Schedule.concat_induction (P := fun moves l => ({} : Ledger).history announced moves =
    (({} : Ledger).history retired moves ++ l.session.toList).flatMap Session.updates) rfl ?_ h
  intro moves l m l' hl hlog hm
  cases hm
  have hmove : step? l m = some (l.move m) := rfl
  rw [history, history, Schedule.along_concat hl hmove, Schedule.along_concat hl hmove]
  rw [show Schedule.along step? announced {} moves = _ from hlog, List.flatMap_append,
    List.append_assoc, updates_move, ← List.flatMap_append, ← List.append_assoc]

/-- The sessions are numbered one after the other, from one to the last number that was given. -/
theorem ids_eq {moves : List Move} {l : Ledger} (h : ({} : Ledger).moves? moves = some l) :
    (({} : Ledger).history retired moves ++ l.session.toList).map (·.id) =
      List.range' 1 l.issued := by
  refine Schedule.concat_induction
    (P := fun moves l => (({} : Ledger).history retired moves ++ l.session.toList).map (·.id) =
      List.range' 1 l.issued) rfl ?_ h
  intro moves l m l' hl hids hm
  cases hm
  have hmove : step? l m = some (l.move m) := rfl
  rw [history, Schedule.along_concat hl hmove, issued_move]
  cases m with
  | enter script started =>
    have hnew : ((l.move (.enter script started)).session.toList).map (·.id) = [l.issued + 1] := by
      rw [move, session_enter]
      rfl
    rw [List.map_append, hnew, retired]
    rw [show List.map (·.id) (Schedule.along step? retired {} moves ++ l.session.toList) = _
      from hids, List.range'_concat]
    simp [Nat.add_comm]
  | notice id n =>
    have hsame : ((l.move (.notice id n)).session.toList).map (·.id) =
        l.session.toList.map (·.id) := by
      cases hpending : l.isPending id with
      | false => rw [move, apply_of_not_isPending hpending]
      | true =>
        obtain ⟨s, hs, rfl, hrunning⟩ := isPending_iff.1 hpending
        cases n with
        | output entry =>
          rw [move, apply_output hs hrunning, hs]
          rfl
        | exited code =>
          rw [move, apply_exited hs hrunning, hs]
          rfl
    rw [List.map_append, hsame, ← List.map_append]
    simpa [retired] using hids
  | subscribe | unsubscribe i | empty i =>
    simpa [retired, move, subscribe, unsubscribe, empty] using hids

/-! ## The log tells of one session -/

variable {moves : List Move} {l : Ledger}

/-- What the log says about one session. -/
theorem filter_announced (h : ({} : Ledger).moves? moves = some l) {s : Session}
    (hs : s ∈ ({} : Ledger).history retired moves ++ l.session.toList) :
    (({} : Ledger).history announced moves).filter (fun u => u.id = s.id) = s.updates := by
  rw [log_eq h]
  apply Session.filter_flatMap_updates _ hs
  rw [ids_eq h]
  exact List.nodup_range'

/-- Of every run that was given a number the log tells the beginning, then the output, then at most
one end and nothing more. -/
theorem announced_of_issued (h : ({} : Ledger).moves? moves = some l) {id : SessionId}
    (hpos : 1 ≤ id) (hid : id ≤ l.issued) :
    ∃ (entries : List Entry) (ends : List SessionState),
      (({} : Ledger).history announced moves).filter (fun u => u.id = id) =
        .state id .running :: (entries.map (.output id) ++ ends.map (.state id)) ∧
      ends.length ≤ 1 ∧ ∀ st ∈ ends, st.isFinished = true := by
  have hmem : id ∈ (({} : Ledger).history retired moves ++ l.session.toList).map (·.id) := by
    rw [ids_eq h, List.mem_range'_1, Nat.add_comm]
    exact ⟨hpos, Nat.lt_succ_of_le hid⟩
  obtain ⟨s, hs, rfl⟩ := List.mem_map.1 hmem
  rw [filter_announced h hs, Session.updates]
  cases hstate : s.state with
  | running => exact ⟨s.output, [], rfl, Nat.zero_le 1, by simp⟩
  | completed code => exact ⟨s.output, [.completed code], rfl, Nat.le_refl 1, by
      simp [SessionState.isFinished]⟩
  | failed cause => exact ⟨s.output, [.failed cause], rfl, Nat.le_refl 1, by
      simp [SessionState.isFinished]⟩

end Ledger

end ScriptWorkbench
