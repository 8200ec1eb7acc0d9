import ScriptWorkbench.Proofs.Report.Offsets
import ScriptWorkbench.Proofs.Report.Reread

/-!
# Which findings are read back

A finding is read back from its display exactly if its lead hides nothing
(`ErrorLine.ofText_display_iff`).  A lead that hides nothing is no obstacle
(`ErrorLine.ofText_display`).  A lead that ends inside a name, or that carries a finding of its own,
gives the display parts with a shorter lead, and these are found instead.
-/

set_option autoImplicit false

namespace ScriptWorkbench

namespace Finding

/-- Parts whose lead ends in a name character are not leftmost: the name can begin there. -/
theorem Parts.IsLeftmost.lead_open {p : Parts} {line : Text} (hp : p.IsLeftmost line) {c : Char}
    (hlast : p.lead.getLast? = some c) : isNameChar c = false := by
  obtain ⟨lead, name, lineDigits, columnDigits, message⟩ := p
  obtain ⟨before, rfl⟩ := List.getLast?_eq_some_iff.1 hlast
  cases hc : isNameChar c with
  | false => rfl
  | true =>
    have hname : IsName (c :: name) := by
      refine ⟨List.cons_ne_nil c name, ?_⟩
      intro d hd
      rcases List.mem_cons.1 hd with rfl | hd
      · exact hc
      · exact hp.valid.name.2 d hd
    have hline : Parts.line ⟨before, c :: name, lineDigits, columnDigits, message⟩ = line := by
      rw [← hp.line]
      simp [Parts.line]
    -- the lead of these parts would be shorter than that of the leftmost ones
    have hle : (before ++ [c]).length ≤ before.length :=
      hp.shortest ⟨before, c :: name, lineDigits, columnDigits, message⟩
        ⟨hname, hp.valid.lineDigits, hp.valid.columnDigits⟩ hline
    rw [List.length_append, List.length_singleton] at hle
    omega

/-- The lead of leftmost parts cannot be taken apart itself: whatever follows it would be part of
the message. -/
theorem Parts.IsLeftmost.ofText_lead {p : Parts} {line : Text} (hp : p.IsLeftmost line) :
    ErrorLine.ofText p.lead = .plain p.lead := by
  refine ErrorLine.ofText_eq_plain ?_
  intro q hq
  let rest : Text := p.name ++ marker ++ p.lineDigits ++ ':' :: p.columnDigits ++ ':' :: p.message
  have hline : Parts.line { q with message := q.message ++ rest } = line := by
    have hwhole : p.line = p.lead ++ rest := by simp [Parts.line, rest]
    rw [← hp.line, hwhole, ← hq.line]
    simp [Parts.line]
  have hle := hp.shortest { q with message := q.message ++ rest }
    ⟨hq.valid.name, hq.valid.lineDigits, hq.valid.columnDigits⟩ hline
  have hlength := congrArg List.length hq.line
  have hname := List.length_pos_iff.2 hq.valid.name.1
  simp only [Parts.line, List.length_append] at hlength
  simp only at hle
  omega

/-- Whether a text ends inside a name can be seen from its last byte. -/
theorem getLast?_isNameChar_iff (t : Text) :
    (∀ c, t.getLast? = some c → isNameChar c = false) ↔
      t = [] ∨ ∃ b, t.bytes.getLast? = some b ∧ ByteScan.isNameByte b = false := by
  rcases List.eq_nil_or_concat t with rfl | ⟨before, c, rfl⟩
  · simp
  · obtain ⟨b, hb, hlast⟩ := Text.exists_getLast?_bytes_concat before c
    have hsame := ByteScan.isAsciiClass_name.mem_utf8EncodeChar hb
    rw [List.concat_eq_append, hlast]
    simp [hsame]

end Finding

namespace ErrorLine

open Finding

/-- A line is recognised as a finding exactly if that is the finding of its leftmost parts. -/
theorem ofText_eq_finding_iff {line : Text} {f : Finding} :
    ofText line = .finding f ↔ ∃ p : Parts, p.IsLeftmost line ∧ p.finding = f := by
  rw [← anywhere?_eq_some_iff, ← first?_eq_anywhere?, ofText]
  cases first? false line <;> simp

/-- A finding that some line can carry is read back from its display exactly if its lead is empty or
its last byte is that of no name, and no finding is recognised in it.  Whatever stands in the
message does not matter. -/
theorem ofText_display_iff {f : Finding} (hprintable : f.IsPrintable) :
    (ofText f.display = .finding f ↔ f.IsOpen) ∧
    (ByteScan.scan f.display = .ok (.finding f) ↔
      (f.lead = [] ∨ ∃ b, f.lead.bytes.getLast? = some b ∧ ByteScan.isNameByte b = false) ∧
        ByteScan.scan f.lead = .ok (.plain f.lead)) := by
  have hiff : ofText f.display = .finding f ↔ f.IsOpen := by
    constructor
    · intro h
      obtain ⟨p, hp, rfl⟩ := ofText_eq_finding_iff.1 h
      exact ⟨fun c hlast => hp.lead_open hlast, hp.ofText_lead⟩
    · exact ofText_display hprintable
  refine ⟨hiff, ?_⟩
  rw [ByteScan.scan_eq, ByteScan.scan_eq, Except.ok.injEq, Except.ok.injEq, hiff, Finding.IsOpen,
    getLast?_isNameChar_iff]

/-- The lead breaks off inside a location, and the name that follows could go on with it. -/
def brokenOff : Finding :=
  ⟨"a.kts:1:".toList, "2.kts".toList, ⟨3, 4⟩, "b.kts:5:6:".toList⟩

/-- The lead has a location of its own. -/
def anticipated : Finding :=
  ⟨"a.kts:1:2:".toList, "2.kts".toList, ⟨3, 4⟩, []⟩

/-- The lead of the first finding breaks off in the middle of a location, and it comes back; that of
the second is a beginning of a location itself, and it does not. -/
theorem ofText_display_broken_off :
    ofText "a.kts:1:2.kts:3:4:b.kts:5:6:".toList = .finding brokenOff ∧
      ofText "a.kts:1:2:2.kts:3:4:".toList ≠ .finding anticipated := by
  have hname : IsName "2".toList := ⟨by decide, List.all_eq_true.1 rfl⟩
  constructor
  · have hdisplay : brokenOff.display = "a.kts:1:2.kts:3:4:b.kts:5:6:".toList := by decide +kernel
    have hiff := (ofText_display_iff (f := brokenOff)
      ⟨⟨"2".toList, hname, rfl⟩, by decide, by decide⟩).1
    rw [← hdisplay, hiff]
    refine ⟨?_, by decide +kernel⟩
    intro c hc
    cases hc
    decide
  · have hdisplay : anticipated.display = "a.kts:1:2:2.kts:3:4:".toList := by decide +kernel
    have hiff := (ofText_display_iff (f := anticipated)
      ⟨⟨"2".toList, hname, rfl⟩, by decide, by decide⟩).1
    rw [← hdisplay, Ne, hiff]
    rintro ⟨-, hplain⟩
    exact absurd hplain (by decide +kernel)

end ErrorLine

end ScriptWorkbench
