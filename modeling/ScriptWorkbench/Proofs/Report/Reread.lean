import ScriptWorkbench.Proofs.Report.Display

/-!
# Findings are read back

A finding is read back from its display if its lead hides nothing (`ErrorLine.ofText_display`).
Parts that begin in the lead would have to end in it as well.  They cannot end behind it: the lead
does not end inside a name, so it would end at one of their marks, and there the name of the finding
is followed by a dot where the parts need a colon (`Finding.past_mark`).
-/

set_option autoImplicit false

namespace ScriptWorkbench

namespace Finding

/-! ## Runs of name characters and the marks between them -/

/-- A digit can stand in a name. -/
theorem isNameChar_of_isDigit {c : Char} (h : c.isDigit = true) : isNameChar c = true := by
  simp [isNameChar, Char.isAlphanum, h]

/-- A run of name characters ends at the first other character. -/
theorem run_unique {a b x y : Text} {m k : Char} (ha : ∀ c ∈ a, isNameChar c = true)
    (hb : ∀ c ∈ b, isNameChar c = true) (hm : isNameChar m = false) (hk : isNameChar k = false)
    (h : a ++ m :: x = b ++ k :: y) : a = b ∧ m = k ∧ x = y := by
  have hstop : ∀ (d : Char) (z : Text), isNameChar d = false →
      ∀ c, (d :: z).head? = some c → isNameChar c = false := by
    intro d z hd c hc
    cases hc
    exact hd
  obtain ⟨htake, hdrop⟩ := takeWhile_run ha (hstop m x hm)
  obtain ⟨htake', hdrop'⟩ := takeWhile_run hb (hstop k y hk)
  rw [h] at htake hdrop
  rw [htake] at htake'
  rw [hdrop] at hdrop'
  exact ⟨htake', List.cons.inj hdrop'⟩

/-- A text that does not end inside a name, with a name and a dot behind it: a run that begins in
the text ends in it, together with the mark behind the run. -/
theorem past_mark {p name y run x : Text} {m : Char}
    (hp : ∀ c, p.getLast? = some c → isNameChar c = false)
    (hname : ∀ c ∈ name, isNameChar c = true) (hrun : ∀ c ∈ run, isNameChar c = true)
    (hm : isNameChar m = false) (hstart : p = [] → m ≠ '.')
    (h : p ++ (name ++ '.' :: y) = run ++ m :: x) :
    ∃ rest, p = run ++ m :: rest ∧ rest ++ (name ++ '.' :: y) = x ∧
      ∀ c, rest.getLast? = some c → isNameChar c = false := by
  have hne : p ≠ [] := by
    intro hnil
    rw [hnil, List.nil_append] at h
    have hmark := (run_unique hname hrun (by decide) hm h).2.1
    exact hstart hnil hmark.symm
  have hoff : ¬ ∀ c ∈ p, isNameChar c = true := by
    intro hall
    have hout := hp _ (List.getLast?_eq_some_getLast hne)
    rw [hall _ (List.getLast_mem hne)] at hout
    cases hout
  rcases List.append_eq_append_iff.1 h with ⟨more, hmore, -⟩ | ⟨tail, htail, hrest⟩
  · exact absurd (fun c hc => hrun c (hmore ▸ List.mem_append_left more hc)) hoff
  · cases tail with
    | nil =>
      rw [List.append_nil] at htail
      exact absurd (htail ▸ hrun) hoff
    | cons d rest =>
      rw [List.cons_append, List.cons.injEq] at hrest
      obtain ⟨rfl, hx⟩ := hrest
      refine ⟨rest, htail, hx.symm, ?_⟩
      intro c hc
      apply hp c
      rw [htail, List.getLast?_append, List.getLast?_cons, hc]
      rfl

/-! ## Nothing begins in an open lead -/

/-- A number that a finding can report is written in digits that it can report. -/
theorem isNumber_decimal {n : Nat} (h : n ≤ maxNumber) : IsNumber (Text.decimal n) := by
  refine ⟨Nat.toDigits_ne_nil, ?_, ?_⟩
  · intro c hc
    exact Nat.isDigit_of_mem_toDigits (by decide) (by decide) hc
  · rw [Text.digitsValue, Text.decimal, Nat.ofDigitChars_toDigits (by decide) (by decide)]
    exact h

/-- A line that has parts is not plain. -/
theorem not_plain_of_line {p : Parts} (hp : p.IsValid) :
    ErrorLine.ofText p.line ≠ .plain p.line := by
  obtain ⟨q, hq⟩ := Parts.exists_isLeftmost hp rfl
  rw [ErrorLine.ofText_eq_of_isLeftmost hq]
  exact ErrorLine.noConfusion

/-- No parts begin in a lead that hides nothing. -/
theorem length_lead_le {lead name y : Text}
    (hlead : ∀ c, lead.getLast? = some c → isNameChar c = false)
    (hplain : ErrorLine.ofText lead = .plain lead) (hname : ∀ c ∈ name, isNameChar c = true)
    {q : Parts} (hq : q.IsValid) (hline : q.line = lead ++ (name ++ '.' :: y)) :
    lead.length ≤ q.lead.length := by
  refine Nat.le_of_not_lt ?_
  intro hlt
  have hwhole : q.line = q.lead ++ (q.name ++ '.' :: (['k', 't', 's'] ++ ':' ::
      (q.lineDigits ++ ':' :: (q.columnDigits ++ ':' :: q.message)))) := by
    simp [Parts.line, marker]
  rw [hwhole] at hline
  have hdigits : ∀ digits, IsNumber digits → ∀ c ∈ digits, isNameChar c = true :=
    fun digits h c hc => isNameChar_of_isDigit (h.2.1 c hc)
  have hextension : ∀ c ∈ ['k', 't', 's'], isNameChar c = true := List.all_eq_true.1 rfl
  -- the lead goes past every mark of the parts, one after the other
  rcases List.append_eq_append_iff.1 hline.symm with ⟨more, hmore, -⟩ | ⟨p, hp, hrest⟩
  · have hlength := congrArg List.length hmore
    rw [List.length_append] at hlength
    omega
  have hopen : ∀ c, p.getLast? = some c → isNameChar c = false := by
    intro c hc
    apply hlead c
    rw [hp, List.getLast?_append, hc]
    rfl
  have hne : p ≠ [] := by
    rintro rfl
    rw [hp, List.append_nil] at hlt
    exact Nat.lt_irrefl _ hlt
  obtain ⟨p₁, hp₁, hrest₁, hopen₁⟩ :=
    past_mark hopen hname hq.name.2 (by decide) (fun hnil => absurd hnil hne) hrest.symm
  obtain ⟨p₂, hp₂, hrest₂, hopen₂⟩ :=
    past_mark hopen₁ hname hextension (by decide) (fun _ => by decide) hrest₁
  obtain ⟨p₃, hp₃, hrest₃, hopen₃⟩ :=
    past_mark hopen₂ hname (hdigits _ hq.lineDigits) (by decide) (fun _ => by decide) hrest₂
  obtain ⟨p₄, hp₄, -, -⟩ :=
    past_mark hopen₃ hname (hdigits _ hq.columnDigits) (by decide) (fun _ => by decide) hrest₃
  have hvalid : Parts.IsValid { q with message := p₄ } :=
    ⟨hq.name, hq.lineDigits, hq.columnDigits⟩
  have hinside : lead = Parts.line { q with message := p₄ } := by
    rw [hp, hp₁, hp₂, hp₃, hp₄]
    simp [Parts.line, marker]
  rw [hinside] at hplain
  exact not_plain_of_line hvalid hplain

end Finding

namespace ErrorLine

open Finding

/-- A finding that some line can carry, and whose lead hides nothing, is read back from its
display. -/
theorem ofText_display {f : Finding} (hprintable : f.IsPrintable) (hopen : f.IsOpen) :
    ofText f.display = .finding f := by
  obtain ⟨lead, file, ⟨line, column⟩, message⟩ := f
  obtain ⟨⟨name, hname, hfile⟩, hline, hcolumn⟩ := hprintable
  obtain rfl : file = name ++ ['.', 'k', 't', 's'] := hfile
  have hvalid : Parts.IsValid ⟨lead, name, Text.decimal line, Text.decimal column, message⟩ :=
    ⟨hname, isNumber_decimal hline, isNumber_decimal hcolumn⟩
  have hdisplay : Finding.display ⟨lead, name ++ ['.', 'k', 't', 's'], ⟨line, column⟩, message⟩ =
      lead ++ (name ++ '.' :: (['k', 't', 's', ':'] ++ (Text.decimal line ++
        ':' :: (Text.decimal column ++ ':' :: message)))) := by
    simp [Finding.display, location]
  have hleftmost : Parts.IsLeftmost
      ⟨lead, name, Text.decimal line, Text.decimal column, message⟩
      (Finding.display ⟨lead, name ++ ['.', 'k', 't', 's'], ⟨line, column⟩, message⟩) := by
    refine ⟨hvalid, ?_, ?_⟩
    · rw [hdisplay]
      simp [Parts.line, marker]
    · intro q hq hqline
      rw [hdisplay] at hqline
      exact length_lead_le hopen.1 hopen.2 hname.2 hq hqline
  rw [ofText_eq_of_isLeftmost hleftmost]
  have hvalue : ∀ n, Text.digitsValue (Text.decimal n) = n :=
    fun n => Nat.ofDigitChars_toDigits (by decide) (by decide)
  simp [Parts.finding, hvalue]

end ErrorLine

end ScriptWorkbench
