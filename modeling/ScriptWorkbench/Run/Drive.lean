import ScriptWorkbench.Run.Basic

/-!
# Driving a run until it waits

Readers and waiter act on their own.  `Run.settle` lets them act until each of them has to wait for
the interpreter: standard output before standard error, and as much in one read as a read can
take.

What is chosen next is always possible, and it uses up some work (`step?_next?`).  A settled run has
come to rest (`next?_settle`).
-/

set_option autoImplicit false

namespace ScriptWorkbench

/-- What a reader still has to do at most. -/
def Feed.work (f : Feed) : Nat :=
  3 * f.unread.length + 2 * f.splitter.pending.length + f.outbox.length + (if f.ended then 0 else 1)

/-- What a waiter still has to do. -/
def Waiter.work : Waiter → Nat
  | .joining => 3
  | .polling => 2
  | .reporting _ => 1
  | .done => 0

namespace Run

/-- What readers and waiter still have to do at most. -/
def work (r : Run) : Nat :=
  r.stdout.work + r.stderr.work + r.waiter.work

/-- What a reader does next, if it does not have to wait. -/
def nextRead? (r : Run) (s : Stream) : Option Step :=
  let f := r.feed s
  if !f.outbox.isEmpty then some (.send s)
  else if f.ended then none
  else if !f.unread.isEmpty then some (.read s (min Feed.chunkLimit f.unread.length))
  else if r.isOpen s then none
  else some (.readEnd s)

/-- What the waiter does next, if it does not have to wait. -/
def nextWait? (r : Run) : Option Step :=
  match r.waiter with
  | .joining => if r.stdout.isDone && r.stderr.isDone then some .join else none
  | .polling => if r.status.isSome then some .poll else none
  | .reporting _ => some .report
  | .done => none

/-- What happens next if nobody but readers and waiter acts. -/
def next? (r : Run) : Option Step :=
  ((r.nextRead? .stdout).or (r.nextRead? .stderr)).or r.nextWait?

/-- Lets readers and waiter act, `fuel` times at most. -/
def settleWithin : Nat → Run → Run
  | 0, r => r
  | fuel + 1, r =>
    match r.next?.bind r.step? with
    | none => r
    | some r => settleWithin fuel r

/-- Lets readers and waiter act until each of them has to wait. -/
def settle (r : Run) : Run :=
  r.settleWithin r.work

/-- Takes every event that has been sent. -/
def takeAll (r : Run) : List Event × Run :=
  (r.queue, { r with queue := [] })

/-! ## The steps of a reader -/

/-- A stream that is replaced is the new one. -/
@[simp]
theorem feed_setFeed (r : Run) (s : Stream) (f : Feed) : (r.setFeed s f).feed s = f := by
  cases s <;> rfl

/-- Sending an event is no work that is left. -/
@[simp]
theorem work_send (r : Run) (e : Event) : (r.send e).work = r.work := by
  unfold send
  split <;> rfl

/-- Less work for one reader is less work for the run. -/
theorem work_setFeed_lt {r : Run} {s : Stream} {f : Feed} (h : f.work < (r.feed s).work) :
    (r.setFeed s f).work < r.work := by
  cases s <;> simp only [feed] at h <;> simp only [work, setFeed] <;> omega

/-- Reading a chunk turns unread bytes into lines and pending bytes. -/
theorem Feed.work_read_lt {f : Feed} {n : Nat} (hpos : 0 < n) (hn : n ≤ f.unread.length)
    (hout : f.outbox = []) : (f.read n).work < f.work := by
  obtain ⟨unread, held, lent, ⟨pending⟩, outbox, ended⟩ := f
  cases hout
  have hcut := Bytes.length_splitLines_le (pending ++ unread.take n)
  have happend : (pending ++ unread.take n).length = pending.length + n := by
    simpa using Nat.min_eq_left hn
  cases ended <;>
    simp only [Feed.read, Feed.work, Splitter.push, List.length_map, List.length_drop,
      List.length_nil, reduceIte, Bool.false_eq_true] at hn ⊢ <;>
    omega

/-- At the end of the stream pending bytes become at most one line. -/
theorem Feed.work_finish_lt {f : Feed} (hended : f.ended = false) (hout : f.outbox = []) :
    f.finish.work < f.work := by
  obtain ⟨unread, held, lent, ⟨pending⟩, outbox, ended⟩ := f
  cases hended
  cases hout
  have htail : ((Splitter.mk pending).finish.1.toList).length ≤ pending.length := by
    cases pending <;> simp [Splitter.finish, Splitter.hasPending]
  have hrest : (Splitter.mk pending).finish.2.pending.length = 0 := rfl
  simp only [Feed.finish, Feed.work, hrest, List.length_nil, reduceIte, Bool.false_eq_true]
  omega

/-- A line that has been sent is no longer work. -/
theorem Feed.work_send_lt {f : Feed} {l : Text} {ls : List Text} (hout : f.outbox = l :: ls) :
    { f with outbox := ls }.work < f.work := by
  simp [Feed.work, hout]

/-- What a reader does next is possible, and it uses up some work. -/
theorem step?_nextRead? {r : Run} {s : Stream} {step : Step} (h : r.nextRead? s = some step) :
    ∃ r', r.step? step = some r' ∧ r'.work < r.work := by
  simp only [nextRead?] at h
  split at h
  · rename_i hout
    cases hbox : (r.feed s).outbox with
    | nil => simp [hbox] at hout
    | cons l ls =>
      cases h
      refine ⟨(r.setFeed s { r.feed s with outbox := ls }).send (.line s l),
        by simp only [step?, hbox], ?_⟩
      rw [work_send]
      exact work_setFeed_lt (Feed.work_send_lt hbox)
  · rename_i hout
    have hbox : (r.feed s).outbox = [] := by simpa using hout
    split at h
    · simp at h
    · rename_i hended
      have hreading : (r.feed s).isReading = true := by simp [Feed.isReading, hended, hbox]
      split at h
      · rename_i hunread
        have hlen : 0 < (r.feed s).unread.length := by
          simpa [List.length_pos_iff] using hunread
        cases h
        refine ⟨r.setFeed s ((r.feed s).read (min Feed.chunkLimit (r.feed s).unread.length)), ?_,
          work_setFeed_lt (Feed.work_read_lt ?_ (Nat.min_le_right _ _) hbox)⟩
        · simp only [step?, hreading, true_and]
          rw [if_pos]
          refine ⟨?_, Nat.min_le_right _ _, Nat.min_le_left _ _⟩
          exact Nat.lt_min.2 ⟨by decide, hlen⟩
        · exact Nat.lt_min.2 ⟨by decide, hlen⟩
      · rename_i hunread
        have hempty : (r.feed s).unread = [] := by simpa using hunread
        split at h
        · simp at h
        · rename_i hopen
          cases h
          refine ⟨r.setFeed s (r.feed s).finish, ?_,
            work_setFeed_lt (Feed.work_finish_lt (by simpa using hended) hbox)⟩
          simp [step?, hreading, hempty, hopen]

/-! ## The steps of the waiter -/

/-- What the waiter does next is possible, and it uses up some work. -/
theorem step?_nextWait? {r : Run} {step : Step} (h : r.nextWait? = some step) :
    ∃ r', r.step? step = some r' ∧ r'.work < r.work := by
  unfold nextWait? at h
  split at h
  · rename_i hwaiter
    split at h
    · rename_i hdone
      rw [Bool.and_eq_true] at hdone
      cases h
      refine ⟨{ r with waiter := .polling }, by simp [step?, hwaiter, hdone], ?_⟩
      simp [work, hwaiter, Waiter.work]
    · simp at h
  · rename_i hwaiter
    split at h
    · rename_i hstatus
      obtain ⟨status, hstatus⟩ := Option.isSome_iff_exists.1 hstatus
      cases h
      refine ⟨{ r with collected := true, waiter := .reporting status.code? },
        by simp [step?, hwaiter, hstatus], ?_⟩
      simp [work, hwaiter, Waiter.work]
    · simp at h
  · rename_i code hwaiter
    cases h
    refine ⟨{ r with waiter := .done }.send (.exited code), by simp [step?, hwaiter], ?_⟩
    rw [work_send]
    simp [work, hwaiter, Waiter.work]
  · simp at h

/-! ## Coming to rest -/

/-- What is chosen next is possible, and it uses up some work. -/
theorem step?_next? {r : Run} {step : Step} (h : r.next? = some step) :
    ∃ r', r.step? step = some r' ∧ r'.work < r.work := by
  simp only [next?, Option.or_eq_some_iff, Option.or_eq_none_iff] at h
  rcases h with (h | ⟨-, h⟩) | ⟨-, h⟩
  · exact step?_nextRead? h
  · exact step?_nextRead? h
  · exact step?_nextWait? h

/-- With fuel for all its work, a run settles until nothing is left to happen by itself. -/
theorem next?_settleWithin (fuel : Nat) (r : Run) (h : r.work ≤ fuel) :
    (r.settleWithin fuel).next? = none := by
  induction fuel generalizing r with
  | zero =>
    cases hnext : r.next? with
    | none => exact hnext
    | some step =>
      obtain ⟨r', -, hlt⟩ := step?_next? hnext
      omega
  | succ fuel ih =>
    unfold settleWithin
    cases hnext : r.next? with
    | none => simp [hnext]
    | some step =>
      obtain ⟨r', hr', hlt⟩ := step?_next? hnext
      simp only [Option.bind_some, hr']
      exact ih r' (by omega)

/-- A settled run has come to rest. -/
theorem next?_settle (r : Run) : r.settle.next? = none :=
  next?_settleWithin _ r (Nat.le_refl _)

end Run

end ScriptWorkbench
