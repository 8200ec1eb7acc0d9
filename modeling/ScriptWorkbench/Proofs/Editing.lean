import ScriptWorkbench.Editor
import ScriptWorkbench.Proofs.Text.Nearest

/-!
# Editing histories

The cursor of an editor is written in three ways: by going back from an offset to a place between
characters, by looking for the place nearest to a position, and by looking for the place of a
position that has to exist.  Each of them ends at a boundary of the text, and so does every history
of actions (`Editor.isSound_actAll`).  A cursor at a boundary is found again from its own line and
column (`Editor.history_sound`).
-/

set_option autoImplicit false

namespace ScriptWorkbench.Editor

/-- An editor with which nothing has been done yet. -/
inductive IsFirst : Editor → Prop
  | new (scheme : Scheme) : IsFirst (new scheme)
  | withText (scheme : Scheme) (text : Text) : IsFirst ((new scheme).setText text)
  | start : IsFirst start

/-! ## Where the cursor goes -/

variable {e e' : Editor}

/-- A cursor that is set stands at a boundary, wherever it was meant to go. -/
theorem isSound_setCursor (e : Editor) (offset : Nat) : (e.setCursor offset).IsSound :=
  e.text.isBoundary_floorBoundary offset

/-- Following a finding leaves the cursor at a boundary. -/
theorem isSound_follow (e : Editor) (f : Finding) : (e.follow f).IsSound :=
  e.text.isBoundary_nearestOffset f.place

/-- The cursor is set to the last boundary that is not beyond the offset. -/
theorem cursor_setCursor_greatest (e : Editor) (offset : Nat) :
    e.text.IsBoundary (e.setCursor offset).cursor ∧ (e.setCursor offset).cursor ≤ offset ∧
      ∀ m, e.text.IsBoundary m → m ≤ offset → m ≤ (e.setCursor offset).cursor := by
  refine ⟨e.isSound_setCursor offset, ?_, ?_⟩
  · apply Text.floorBoundary_le
  · intro m hm hle
    exact hm.le_floorBoundary hle

/-- Stepping back byte by byte from the offset, or from the end of the text, finds the same. -/
theorem stepBack_eq_cursor (e : Editor) (offset : Nat) :
    PlaceScan.stepBack e.text.bytes (min offset e.text.byteSize) = (e.setCursor offset).cursor := by
  rw [PlaceScan.stepBack_eq, Text.floorBoundary_min]
  rfl

/-- A finding can be followed exactly if the text has its place, and then only the cursor moves. -/
theorem follow?_eq_ok_iff {f : Finding} :
    e.follow? f = .ok e' ↔ ∃ n, e.text.offsetOf f.place = .ok n ∧ e' = { e with cursor := n } := by
  unfold follow?
  cases e.text.offsetOf f.place with
  | ok n => simp [Except.map, eq_comm]
  | error fault => simp [Except.map]

/-- A place that exists is the nearest one. -/
theorem eq_follow_of_follow? {f : Finding} (h : e.follow? f = .ok e') : e' = e.follow f := by
  obtain ⟨n, hn, rfl⟩ := follow?_eq_ok_iff.1 h
  unfold follow
  rw [Text.nearestOffset_of_offsetOf hn]

/-- The places that exist are those of the boundaries. -/
theorem exists_follow?_eq_ok_iff (e : Editor) (f : Finding) :
    (∃ e', e.follow? f = .ok e') ↔ ∃ n, e.text.IsBoundary n ∧ e.text.positionAt n = f.place := by
  constructor
  · rintro ⟨e', h⟩
    obtain ⟨n, hn, -⟩ := follow?_eq_ok_iff.1 h
    exact ⟨n, Text.positionAt_of_offsetOf hn⟩
  · rintro ⟨n, hn, hplace⟩
    refine ⟨{ e with cursor := n }, follow?_eq_ok_iff.2 ⟨n, ?_, rfl⟩⟩
    rw [← hplace]
    exact hn.offsetOf_positionAt

/-! ## Histories -/

/-- A finding without a place in the text changes nothing. -/
theorem act_tryFollow_of_error {f : Finding} {error : PositionError}
    (h : e.follow? f = .error error) : e.act (.tryFollow f) = e := by
  show (e.follow? f).toOption.getD e = e
  rw [h]
  rfl

/-- A finding that can be followed exactly is followed like any other. -/
theorem act_tryFollow_of_ok {f : Finding} (h : e.follow? f = .ok e') :
    e.act (.tryFollow f) = e.act (.follow f) := by
  show (e.follow? f).toOption.getD e = e.follow f
  rw [h, ← eq_follow_of_follow? h]
  rfl

/-- No action takes the cursor off the boundaries. -/
theorem isSound_act (h : e.IsSound) (a : Action) : (e.act a).IsSound := by
  cases a with
  | setText text => exact isSound_setCursor { e with text := text } e.cursor
  | setCursor offset => exact e.isSound_setCursor offset
  | follow f => exact e.isSound_follow f
  | tryFollow f =>
    cases hf : e.follow? f with
    | error error =>
      rw [act_tryFollow_of_error hf]
      exact h
    | ok e' =>
      rw [act_tryFollow_of_ok hf]
      exact e.isSound_follow f

/-- No row of actions takes the cursor off the boundaries. -/
theorem isSound_actAll (h : e.IsSound) (actions : List Action) : (e.actAll actions).IsSound := by
  induction actions generalizing e with
  | nil => exact h
  | cons a actions ih => exact ih (isSound_act h a)

/-- An editor that was just opened has its cursor at a boundary. -/
theorem IsFirst.isSound (h : e.IsFirst) : e.IsSound := by
  cases h with
  | new scheme => exact ⟨[], [], rfl, rfl⟩
  | withText scheme text => exact isSound_setCursor ⟨text, 0, scheme⟩ 0
  | start => exact isSound_setCursor ⟨sample, 0, {}⟩ 0

/-- Whatever is done with an editor, its cursor stays at a boundary of the text: cutting the text
there never fails, and the line and column of the cursor lead back to it.  Replacing the text, like
setting the cursor, goes to the last boundary that is not beyond the old cursor, which is what
stepping back byte by byte finds.  Trying to follow a finding changes nothing if its place does not
exist, and does what following does if it exists. -/
theorem history_sound {first : Editor} (hfirst : first.IsFirst) (actions : List Action) :
    let e := first.actAll actions
    (e.text.IsBoundary e.cursor ∧ e.cursor ≤ e.text.byteSize) ∧
    (e.text.offsetOf e.position = .ok e.cursor ∧
      PlaceScan.positionAt? e.text e.cursor = some e.position) ∧
    (∀ text, (e.act (.setText text)).text = text ∧
      let cursor := (e.act (.setText text)).cursor
      text.IsBoundary cursor ∧ cursor ≤ e.cursor ∧
        (∀ m, text.IsBoundary m → m ≤ e.cursor → m ≤ cursor) ∧
        PlaceScan.stepBack text.bytes (min e.cursor text.byteSize) = cursor) ∧
    (∀ offset, (e.act (.setCursor offset)).text = e.text ∧
      let cursor := (e.act (.setCursor offset)).cursor
      e.text.IsBoundary cursor ∧ cursor ≤ offset ∧
        (∀ m, e.text.IsBoundary m → m ≤ offset → m ≤ cursor) ∧
        PlaceScan.stepBack e.text.bytes (min offset e.text.byteSize) = cursor) ∧
    (∀ f, (e.act (.follow f)).text = e.text ∧
      (e.act (.follow f)).cursor = e.text.nearestOffset f.place) ∧
    (∀ f error, e.follow? f = .error error → e.act (.tryFollow f) = e) ∧
    (∀ f e', e.follow? f = .ok e' →
      e' = e.act (.follow f) ∧ e.act (.tryFollow f) = e.act (.follow f)) ∧
    (∀ f, (∃ e', e.follow? f = .ok e') ↔
      ∃ n, e.text.IsBoundary n ∧ e.text.positionAt n = f.place) := by
  intro e
  have hsound : e.text.IsBoundary e.cursor := isSound_actAll hfirst.isSound actions
  refine ⟨⟨hsound, hsound.le_byteSize⟩, ⟨hsound.offsetOf_positionAt, ?_⟩, ?_, ?_, ?_, ?_, ?_,
    e.exists_follow?_eq_ok_iff⟩
  · apply PlaceScan.positionAt?_eq
  · intro text
    obtain ⟨hboundary, hle, hgreatest⟩ :=
      cursor_setCursor_greatest { e with text := text } e.cursor
    exact ⟨rfl, hboundary, hle, hgreatest, stepBack_eq_cursor { e with text := text } e.cursor⟩
  · intro offset
    obtain ⟨hboundary, hle, hgreatest⟩ := e.cursor_setCursor_greatest offset
    exact ⟨rfl, hboundary, hle, hgreatest, e.stepBack_eq_cursor offset⟩
  · intro f
    exact ⟨rfl, rfl⟩
  · intro f error h
    exact act_tryFollow_of_error h
  · intro f e' h
    exact ⟨eq_follow_of_follow? h, act_tryFollow_of_ok h⟩

/-- The text shrinks under the cursor, and findings lead beyond the text and to zero. -/
def shrinking : List Action :=
  [.setCursor 3, .setText "aé\nb€".toList, .follow ⟨[], [], ⟨2, 9⟩, []⟩,
    .tryFollow ⟨[], [], ⟨0, 7⟩, []⟩, .setText "a€€".toList]

/-- The cursor stands at a boundary after all this, it goes back to one when the text changes under
it again, and a finding without a place leaves it there. -/
theorem history_sound_shrinking :
    let e := ((new {}).setText "€€".toList).actAll shrinking
    e.text = "a€€".toList ∧ e.cursor = 7 ∧ e.text.IsBoundary e.cursor ∧
      e.text.offsetOf e.position = .ok e.cursor ∧
      (e.act (.setText "ééé€".toList)).cursor = 6 ∧
      (∀ m, Text.IsBoundary "ééé€".toList m → m ≤ e.cursor →
        m ≤ (e.act (.setText "ééé€".toList)).cursor) ∧
      e.act (.tryFollow ⟨[], [], ⟨2, 1⟩, []⟩) = e := by
  intro e
  have htext : e.text = "a€€".toList := by decide +kernel
  have hmissing : e.follow? ⟨[], [], ⟨2, 1⟩, []⟩ = .error ⟨.noLine 1, ⟨2, 1⟩⟩ := by
    unfold follow?
    rw [htext]
    rfl
  obtain ⟨⟨hboundary, -⟩, ⟨hback, -⟩, htexts, -, -, hrefused, -, -⟩ :=
    history_sound (.withText {} "€€".toList) shrinking
  obtain ⟨-, -, -, hgreatest, -⟩ := htexts "ééé€".toList
  exact ⟨htext, by decide +kernel, hboundary, hback, by decide +kernel, hgreatest,
    hrefused _ _ hmissing⟩

end ScriptWorkbench.Editor
