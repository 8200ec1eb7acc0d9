import ScriptWorkbench.Editor
import ScriptWorkbench.Proofs.Report.Reread
import ScriptWorkbench.Proofs.Text.Decoding
import ScriptWorkbench.Proofs.Text.Places

/-!
# Following a finding

A compiler writes the position of a character into a line of its output.  The line comes back from
the stream as it was written, the finding is read back from the line, and the position leads back to
the character, so whoever follows the finding stands at the character that was reported
(`Editor.follow_reported`).
-/

set_option autoImplicit false

namespace ScriptWorkbench

namespace Editor

/-- Following a finding at a boundary of the text goes there, whether the place has to exist or
not. -/
theorem follow_boundary {e : Editor} {o : Nat} (ho : e.text.IsBoundary o) {f : Finding}
    (hplace : f.place = e.text.positionAt o) :
    e.follow? f = .ok { e with cursor := o } ∧ e.follow f = { e with cursor := o } := by
  have hoffset : e.text.offsetOf f.place = .ok o := by
    rw [hplace]
    exact ho.offsetOf_positionAt
  constructor
  · rw [follow?, hoffset]
    rfl
  · rw [follow, Text.nearestOffset_of_offsetOf hoffset]

/-- A compiler reports a position of a buffer on a line of its output: the lead of the line does not
end inside a name and carries no finding, then come the name of the script, the position and a
message.  However the stream cuts the line, and whichever end the line has, one line is handed out;
it carries one finding, and an editor with this buffer, wherever its cursor was, goes to the
character that was reported. -/
theorem follow_reported {t : Text} {o : Nat} (ho : t.IsBoundary o)
    (hline : (t.positionAt o).line ≤ Finding.maxNumber)
    (hcolumn : (t.positionAt o).column ≤ Finding.maxNumber) {lead name message line : Text}
    (hname : Finding.IsName name)
    (hlead : ∀ c, lead.getLast? = some c → Finding.isNameChar c = false)
    (hplain : ErrorLine.ofText lead = .plain lead)
    (hwritten : line = lead ++ name ++ ".kts:".toList ++ Text.decimal (t.positionAt o).line ++
      ':' :: Text.decimal (t.positionAt o).column ++ ':' :: message)
    (hfeed : '\n' ∉ line) (hreturn : line.getLast? ≠ some '\r') {chunks : List Bytes}
    (hchunks : chunks.flatten = line.bytes ++ [lineFeed] ∨
      chunks.flatten = line.bytes ++ [carriageReturn, lineFeed]) :
    ∃ d : Finding, d = ⟨lead, name ++ ".kts".toList, t.positionAt o, message⟩ ∧
      Splitter.empty.pushAll chunks = ([line], Splitter.empty) ∧
      ErrorLine.ofText line = .finding d ∧
      ∀ e : Editor, e.text = t →
        e.follow? d = .ok { e with cursor := o } ∧ e.follow d = { e with cursor := o } ∧
        (e.follow d).cursor = o ∧ (e.follow d).position = t.positionAt o := by
  let d : Finding := ⟨lead, name ++ ".kts".toList, t.positionAt o, message⟩
  have hdisplay : line = d.display := by
    rw [hwritten]
    simp [d, Finding.display, Finding.location]
  -- a compiler pads no number, so the finding is displayed as the line was written
  have hread : ErrorLine.ofText line = .finding d := by
    rw [hdisplay]
    exact ErrorLine.ofText_display ⟨⟨name, hname, rfl⟩, hline, hcolumn⟩ ⟨hlead, hplain⟩
  refine ⟨d, rfl, Splitter.pushAll_line hfeed hreturn hchunks, hread, ?_⟩
  rintro e rfl
  obtain ⟨htry, hfollow⟩ := follow_boundary ho (f := d) rfl
  refine ⟨htry, hfollow, ?_, ?_⟩
  · rw [hfollow]
  · rw [hfollow]
    rfl

/-- The line is cut inside a character and between the two bytes of its end. -/
def cutLine : List Bytes :=
  [(Text.bytes "e: x-1.kts:2:3: é".toList).take 17,
    (Text.bytes "e: x-1.kts:2:3: é".toList).drop 17 ++ [carriageReturn], [], [lineFeed]]

/-- A finding whose line comes in with a character and its line end cut in two is followed to the
place that it names, wherever the cursor was. -/
theorem follow_reported_cut_line :
    ∃ d : Finding, Splitter.empty.pushAll cutLine = (["e: x-1.kts:2:3: é".toList], .empty) ∧
      ErrorLine.ofText "e: x-1.kts:2:3: é".toList = .finding d ∧
      (follow ⟨"aé\nb€c".toList, 1, {}⟩ d).cursor = 8 ∧
      (follow ⟨"aé\nb€c".toList, 1, {}⟩ d).position = ⟨2, 3⟩ := by
  have ho : Text.IsBoundary "aé\nb€c".toList 8 :=
    ⟨"aé\nb€".toList, "c".toList, rfl, by decide +kernel⟩
  have hposition : Text.positionAt "aé\nb€c".toList 8 = ⟨2, 3⟩ := by decide +kernel
  have hname : Finding.IsName "x-1".toList := ⟨by decide, List.all_eq_true.1 rfl⟩
  have hlead : ∀ c, List.getLast? "e: ".toList = some c → Finding.isNameChar c = false := by
    intro c hc
    cases hc
    decide
  have hplain : ErrorLine.ofText "e: ".toList = .plain "e: ".toList := by decide +kernel
  have hwritten : "e: x-1.kts:2:3: é".toList = "e: ".toList ++ "x-1".toList ++ ".kts:".toList ++
      Text.decimal (Text.positionAt "aé\nb€c".toList 8).line ++
      ':' :: Text.decimal (Text.positionAt "aé\nb€c".toList 8).column ++ ':' :: " é".toList := by
    rw [hposition]
    decide +kernel
  have hchunks : cutLine.flatten = Text.bytes "e: x-1.kts:2:3: é".toList ++ [lineFeed] ∨
      cutLine.flatten = Text.bytes "e: x-1.kts:2:3: é".toList ++ [carriageReturn, lineFeed] :=
    Or.inr (by decide +kernel)
  obtain ⟨d, -, hline, hread, hfollow⟩ := follow_reported ho (by rw [hposition]; decide)
    (by rw [hposition]; decide) hname hlead hplain hwritten (by decide) (by decide) hchunks
  obtain ⟨-, -, hcursor, hlands⟩ := hfollow ⟨"aé\nb€c".toList, 1, {}⟩ rfl
  exact ⟨d, hline, hread, hcursor, hlands.trans hposition⟩

end Editor

end ScriptWorkbench
