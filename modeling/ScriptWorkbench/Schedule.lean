/-!
# Schedules

A system changes step by step: `step? s i` is what step `i` makes of state `s`, or nothing if the
step is not possible there.  A schedule is a row of steps that are possible one after the other,
whoever takes them.  `after?` is the state at its end, and `along` collects what can be seen of
every step on the way.

Both fall apart at any place of the schedule (`after?_append`, `along_append`), and what every step
keeps, every schedule keeps (`invariant`, and `concat_induction` for properties of the way there).
A schedule of a system is a schedule of each of its parts (`after?_part`, `along_part`).
-/

set_option autoImplicit false

namespace ScriptWorkbench.Schedule

variable {σ ι α : Type}

/-- The state after a row of steps, if each of them is possible in its turn. -/
def after? (step? : σ → ι → Option σ) (s : σ) : List ι → Option σ
  | [] => some s
  | i :: is => (step? s i).bind fun t => after? step? t is

/-- What is seen of the steps of a row, as far as they are possible. -/
def along (step? : σ → ι → Option σ) (see : σ → ι → List α) (s : σ) : List ι → List α
  | [] => []
  | i :: is =>
    match step? s i with
    | none => []
    | some t => see s i ++ along step? see t is

variable {step? : σ → ι → Option σ} {see : σ → ι → List α}

/-- A schedule in two parts goes through where the first part ends. -/
theorem after?_append (s : σ) (a b : List ι) :
    after? step? s (a ++ b) = (after? step? s a).bind fun t => after? step? t b := by
  induction a generalizing s with
  | nil => rfl
  | cons i a ih =>
    simp only [List.cons_append, after?]
    cases step? s i <;> simp [ih]

/-- Two schedules, the second of which begins where the first one ends. -/
theorem after?_trans {s t u : σ} {a b : List ι} (ha : after? step? s a = some t)
    (hb : after? step? t b = some u) : after? step? s (a ++ b) = some u := by
  rw [after?_append, ha]
  exact hb

/-- What is seen along two parts is what is seen along each of them, one behind the other. -/
theorem along_append {s t : σ} {a : List ι} (h : after? step? s a = some t) (b : List ι) :
    along step? see s (a ++ b) = along step? see s a ++ along step? see t b := by
  induction a generalizing s with
  | nil =>
    cases h
    rfl
  | cons i a ih =>
    obtain ⟨u, hu, hafter⟩ := Option.bind_eq_some_iff.1 h
    simp only [List.cons_append, along, hu, ih hafter, List.append_assoc]

/-- The last step is taken from where the others lead. -/
theorem after?_concat (s : σ) (is : List ι) (i : ι) :
    after? step? s (is ++ [i]) = (after? step? s is).bind fun t => step? t i := by
  rw [after?_append]
  congr
  funext t
  simp [after?]

/-- A further step shows what it shows from where the others lead. -/
theorem along_concat {s t u : σ} {is : List ι} {i : ι} (h : after? step? s is = some t)
    (hi : step? t i = some u) :
    along step? see s (is ++ [i]) = along step? see s is ++ see t i := by
  rw [along_append h]
  simp [along, hi]

/-- Whatever is seen along a schedule is seen in one of its steps. -/
theorem exists_of_mem_along {s : σ} {steps : List ι} {x : α} (h : x ∈ along step? see s steps) :
    ∃ i ∈ steps, ∃ t, x ∈ see t i := by
  induction steps generalizing s with
  | nil => simp [along] at h
  | cons i is ih =>
    simp only [along] at h
    split at h
    · simp at h
    · rcases List.mem_append.1 h with h | h
      · exact ⟨i, List.mem_cons_self, s, h⟩
      · obtain ⟨j, hj, t, ht⟩ := ih h
        exact ⟨j, List.mem_cons_of_mem i hj, t, ht⟩

/-- Steps that show nothing show nothing together. -/
theorem along_eq_nil {s : σ} {steps : List ι} (h : ∀ i ∈ steps, ∀ t, see t i = []) :
    along step? see s steps = [] := by
  rw [List.eq_nil_iff_forall_not_mem]
  intro x hx
  obtain ⟨i, hi, t, ht⟩ := exists_of_mem_along hx
  rw [h i hi t] at ht
  exact List.not_mem_nil ht

/-- What can be computed of the end of a schedule is true of the end. -/
theorem eq_of_map_after? {β : Type} {f : σ → β} {b : β} {s t : σ} {steps : List ι}
    (h : after? step? s steps = some t) (hf : (after? step? s steps).map f = some b) : f t = b := by
  rw [h] at hf
  exact Option.some.inj hf

/-- What holds at the start and is kept by one more step holds of every schedule.  The property may
speak of the whole schedule and not only of the state at its end. -/
theorem concat_induction {P : List ι → σ → Prop} {s : σ} (nil : P [] s)
    (concat : ∀ is t i u, after? step? s is = some t → P is t → step? t i = some u →
      P (is ++ [i]) u)
    {steps : List ι} {t : σ} (h : after? step? s steps = some t) : P steps t := by
  -- the schedule is taken apart from the front, so its beginning has to be carried along
  have hall : ∀ (rest front : List ι) (u : σ), after? step? s front = some u → P front u →
      after? step? u rest = some t → P (front ++ rest) t := by
    intro rest
    induction rest with
    | nil =>
      intro front u _ hP hu
      cases hu
      simpa using hP
    | cons i rest ih =>
      intro front u hfront hP hu
      obtain ⟨v, hv, hrest⟩ := Option.bind_eq_some_iff.1 hu
      have hfront' : after? step? s (front ++ [i]) = some v := by
        rw [after?_concat, hfront]
        exact hv
      have := ih (front ++ [i]) v hfront' (concat front u i v hfront hP hv) hrest
      simpa using this
  exact hall steps [] s rfl nil h

/-- What every step keeps, every schedule keeps. -/
theorem invariant {P : σ → Prop} (hstep : ∀ s i t, P s → step? s i = some t → P t) {s t : σ}
    {steps : List ι} (hs : P s) (h : after? step? s steps = some t) : P t := by
  induction steps generalizing s with
  | nil =>
    cases h
    exact hs
  | cons i is ih =>
    obtain ⟨u, hu, hafter⟩ := Option.bind_eq_some_iff.1 h
    exact ih (hstep s i u hs hu) hafter

/-! ## Parts of a system -/

variable {τ κ : Type} {part? : τ → κ → Option τ} {seen : τ → κ → List α}
  {view : σ → τ} {moves : σ → ι → List κ}

/-- If every step of a system is a row of moves of one of its parts, then every schedule of the
system is a schedule of that part. -/
theorem after?_part
    (hstep : ∀ s i t, step? s i = some t → after? part? (view s) (moves s i) = some (view t))
    {steps : List ι} {s t : σ} (h : after? step? s steps = some t) :
    after? part? (view s) (along step? moves s steps) = some (view t) := by
  induction steps generalizing s with
  | nil =>
    cases h
    rfl
  | cons i is ih =>
    obtain ⟨u, hu, hafter⟩ := Option.bind_eq_some_iff.1 h
    simp only [along, hu, after?_append, hstep s i u hu, Option.bind_some]
    exact ih hafter

/-- What is seen of the part is then the same along both schedules. -/
theorem along_part
    (hstep : ∀ s i t, step? s i = some t → after? part? (view s) (moves s i) = some (view t))
    (hsee : ∀ s i t, step? s i = some t → see s i = along part? seen (view s) (moves s i))
    {steps : List ι} {s t : σ} (h : after? step? s steps = some t) :
    along step? see s steps = along part? seen (view s) (along step? moves s steps) := by
  induction steps generalizing s with
  | nil => rfl
  | cons i is ih =>
    obtain ⟨u, hu, hafter⟩ := Option.bind_eq_some_iff.1 h
    simp only [along, hu]
    rw [along_append (hstep s i u hu), hsee s i u hu, ih hafter]

end ScriptWorkbench.Schedule
