import ScriptWorkbench.Report.Parts

/-!
# The leftmost finding

A finding that begins at the front of a text is the same as parts without a lead
(`Finding.here?_eq_some_iff`).  The search that tries every place of a line and not only the
beginnings of names (`Finding.anywhere?`) finds the parts with the shortest lead
(`Finding.anywhere?_eq_some_iff`), and the search that skips the places inside names finds the same
(`Finding.first?_eq_anywhere?`): a name that can be cut short can also be read in full.
-/

set_option autoImplicit false

namespace ScriptWorkbench.Finding

/-! ## The grammar from the front -/

/-- A run that stops ends where the rest begins. -/
theorem takeWhile_run {q : Char → Bool} {run rest : Text} (hrun : ∀ c ∈ run, q c = true)
    (hrest : ∀ c, rest.head? = some c → q c = false) :
    (run ++ rest).takeWhile q = run ∧ (run ++ rest).dropWhile q = rest := by
  rw [List.takeWhile_append_of_pos hrun, List.dropWhile_append_of_pos hrun]
  cases rest with
  | nil => simp
  | cons c rest =>
    have hc : q c = false := hrest c rfl
    simp [hc]

/-- What is expected at the front is taken off, and the rest remains. -/
theorem expect?_eq_some_iff {expected t rest : Text} :
    expect? expected t = some rest ↔ t = expected ++ rest := by
  unfold expect?
  constructor
  · intro h
    split at h
    · rename_i hbegins
      obtain ⟨after, rfl⟩ := hbegins
      rw [List.drop_left, Option.some.injEq] at h
      rw [h]
    · cases h
  · rintro rfl
    rw [if_pos (List.prefix_append _ _), List.drop_left]

/-- A number at the front of a text is all its leading digits. -/
theorem number?_eq_some_iff {t rest : Text} {value : Nat} :
    number? t = some (value, rest) ↔
      ∃ digits, IsNumber digits ∧ t = digits ++ rest ∧ value = Text.digitsValue digits ∧
        ∀ c, rest.head? = some c → c.isDigit = false := by
  constructor
  · intro h
    simp only [number?] at h
    split at h
    · rename_i hdigits
      simp only [Option.some.injEq, Prod.mk.injEq] at h
      obtain ⟨rfl, rfl⟩ := h
      refine ⟨t.takeWhile Char.isDigit,
        ⟨hdigits.1, List.all_eq_true.1 List.all_takeWhile, hdigits.2⟩,
        List.takeWhile_append_dropWhile.symm, rfl, ?_⟩
      intro c hc
      have hstop := List.head?_dropWhile_not Char.isDigit t
      rw [hc] at hstop
      simpa using hstop
    · cases h
  · rintro ⟨digits, ⟨hne, hall, hvalue⟩, rfl, rfl, hstop⟩
    obtain ⟨htake, hdrop⟩ := takeWhile_run hall hstop
    simp only [number?, htake, hdrop]
    rw [if_pos ⟨hne, hvalue⟩]

/-- The name at the front of a text is all its leading name characters. -/
theorem here?_eq_some_iff {t : Text} {f : Finding} :
    here? t = some f ↔ ∃ p : Parts, p.IsValid ∧ p.lead = [] ∧ p.line = t ∧ p.finding = f := by
  constructor
  · intro h
    simp only [here?, Option.bind_eq_bind, Option.bind_eq_some_iff, Prod.exists] at h
    obtain ⟨afterMarker, hmarker, line, afterLine, hline, beforeColumn, hcolon, column, afterColumn,
      hcolumn, message, hmessage, hfinding⟩ := h
    split at hfinding
    · cases hfinding
    rename_i hname
    rw [expect?_eq_some_iff] at hmarker hcolon hmessage
    obtain ⟨lineDigits, hlineDigits, hlineText, rfl, -⟩ := number?_eq_some_iff.1 hline
    obtain ⟨columnDigits, hcolumnDigits, hcolumnText, rfl, -⟩ := number?_eq_some_iff.1 hcolumn
    refine ⟨⟨[], t.takeWhile isNameChar, lineDigits, columnDigits, message⟩,
      ⟨⟨hname, List.all_eq_true.1 List.all_takeWhile⟩, hlineDigits, hcolumnDigits⟩, rfl, ?_, ?_⟩
    · calc
        _ = t.takeWhile isNameChar ++ (marker ++ (lineDigits ++ ([':'] ++
              (columnDigits ++ ([':'] ++ message))))) := by simp [Parts.line]
        _ = t.takeWhile isNameChar ++ t.dropWhile isNameChar := by
          rw [hmarker, hlineText, hcolon, hcolumnText, hmessage]
        _ = t := List.takeWhile_append_dropWhile
    · exact Option.some.inj hfinding
  · rintro ⟨⟨lead, name, lineDigits, columnDigits, message⟩, ⟨hname, hline, hcolumn⟩, rfl, rfl, rfl⟩
    have hcolon : ∀ (rest : Text) c, (':' :: rest).head? = some c → c.isDigit = false := by
      intro rest c hc
      cases hc
      decide
    have hdot : ∀ (rest : Text) c, (marker ++ rest).head? = some c → isNameChar c = false := by
      intro rest c hc
      cases hc
      decide
    have hwhole : Parts.line ⟨[], name, lineDigits, columnDigits, message⟩ =
        name ++ (marker ++ (lineDigits ++ (':' :: (columnDigits ++ (':' :: message))))) := by
      simp [Parts.line]
    obtain ⟨htake, hdrop⟩ := takeWhile_run hname.2
      (hdot (lineDigits ++ (':' :: (columnDigits ++ (':' :: message)))))
    have hlineNumber := number?_eq_some_iff.2
      ⟨lineDigits, hline, rfl, rfl, hcolon (columnDigits ++ (':' :: message))⟩
    have hcolumnNumber := number?_eq_some_iff.2 ⟨columnDigits, hcolumn, rfl, rfl, hcolon message⟩
    have hexpect : ∀ rest : Text, expect? [':'] (':' :: rest) = some rest :=
      fun rest => expect?_eq_some_iff.2 rfl
    have hmarker : ∀ rest : Text, expect? marker (marker ++ rest) = some rest :=
      fun rest => expect?_eq_some_iff.2 rfl
    rw [hwhole, here?, htake, hdrop]
    simp [hmarker, hlineNumber, hcolumnNumber, hexpect, hname.1, Parts.finding]

/-! ## Every place of a line -/

/-- Parts with one more character before them. -/
def Parts.behind (c : Char) (p : Parts) : Parts :=
  { p with lead := c :: p.lead }

/-- A character in front of the parts is a character in front of their line. -/
theorem Parts.line_behind (c : Char) (p : Parts) : (p.behind c).line = c :: p.line := rfl

/-- Parts either begin with the name or have a first character before them. -/
theorem Parts.cases_lead {p : Parts} {c : Char} {t : Text} (hvalid : p.IsValid)
    (hline : p.line = c :: t) :
    p.lead = [] ∨ ∃ q : Parts, p = q.behind c ∧ q.IsValid ∧ q.line = t := by
  obtain ⟨lead, name, lineDigits, columnDigits, message⟩ := p
  cases lead with
  | nil => exact Or.inl rfl
  | cons d lead =>
    right
    have hcons : d :: Parts.line ⟨lead, name, lineDigits, columnDigits, message⟩ = c :: t := hline
    rw [List.cons.injEq] at hcons
    obtain ⟨rfl, hrest⟩ := hcons
    exact ⟨⟨lead, name, lineDigits, columnDigits, message⟩, rfl,
      ⟨hvalid.name, hvalid.lineDigits, hvalid.columnDigits⟩, hrest⟩

/-- The search at every place finds the parts with the shortest lead. -/
theorem anywhere?_eq_some_iff {t : Text} {f : Finding} :
    anywhere? t = some f ↔ ∃ p : Parts, p.IsLeftmost t ∧ p.finding = f := by
  induction t generalizing f with
  | nil =>
    constructor
    · intro h
      cases h
    · rintro ⟨p, hp, -⟩
      have hline := hp.line
      simp [Parts.line] at hline
  | cons c t ih =>
    rw [anywhere?, Option.or_eq_some_iff, Option.map_eq_some_iff]
    constructor
    · rintro (hhere | ⟨hnone, g, hg, rfl⟩)
      · obtain ⟨p, hvalid, hlead, hline, rfl⟩ := here?_eq_some_iff.1 hhere
        refine ⟨p, ⟨hvalid, hline, ?_⟩, rfl⟩
        intro q _ _
        rw [hlead]
        exact Nat.zero_le _
      · obtain ⟨p, hp, rfl⟩ := ih.1 hg
        refine ⟨p.behind c,
          ⟨⟨hp.valid.name, hp.valid.lineDigits, hp.valid.columnDigits⟩, ?_, ?_⟩, rfl⟩
        · rw [Parts.line_behind, hp.line]
        · intro q hq hline
          rcases Parts.cases_lead hq hline with hlead | ⟨r, rfl, hr, hrest⟩
          · have hsome := here?_eq_some_iff.2 ⟨q, hq, hlead, hline, rfl⟩
            rw [hnone] at hsome
            cases hsome
          · exact Nat.succ_le_succ (hp.shortest r hr hrest)
    · rintro ⟨p, hp, rfl⟩
      rcases Parts.cases_lead hp.valid hp.line with hlead | ⟨q, rfl, hq, hrest⟩
      · exact Or.inl (here?_eq_some_iff.2 ⟨p, hp.valid, hlead, hp.line, rfl⟩)
      · right
        constructor
        · cases hhere : here? (c :: t) with
          | none => rfl
          | some g =>
            -- parts without a lead would be shorter
            obtain ⟨r, hr, hlead, hline, -⟩ := here?_eq_some_iff.1 hhere
            have hle := hp.shortest r hr hline
            rw [hlead] at hle
            exact absurd hle (Nat.not_succ_le_zero q.lead.length)
        · refine ⟨q.finding, ih.2 ⟨q, ⟨hq, hrest, ?_⟩, rfl⟩, rfl⟩
          intro r hr hline
          have hbehind : (r.behind c).IsValid := ⟨hr.name, hr.lineDigits, hr.columnDigits⟩
          have hle := hp.shortest (r.behind c) hbehind (by rw [Parts.line_behind, hline])
          exact Nat.le_of_succ_le_succ hle

/-- A line that has parts has leftmost ones. -/
theorem Parts.exists_isLeftmost {p : Parts} {t : Text} (hvalid : p.IsValid) (hline : p.line = t) :
    ∃ q : Parts, q.IsLeftmost t := by
  induction hn : p.lead.length using Nat.strongRecOn generalizing p with
  | ind n ih =>
    by_cases hshorter : ∃ q : Parts, q.IsValid ∧ q.line = t ∧ q.lead.length < n
    · obtain ⟨q, hq, hqline, hlt⟩ := hshorter
      exact ih q.lead.length hlt hq hqline rfl
    · refine ⟨p, hvalid, hline, ?_⟩
      intro q hq hqline
      rw [hn]
      exact Nat.le_of_not_lt fun hlt => hshorter ⟨q, hq, hqline, hlt⟩

/-- Nothing is found in a line exactly if it has no parts. -/
theorem anywhere?_eq_none_iff {t : Text} :
    anywhere? t = none ↔ ¬ ∃ p : Parts, p.IsValid ∧ p.line = t := by
  constructor
  · rintro hnone ⟨p, hvalid, hline⟩
    obtain ⟨q, hq⟩ := Parts.exists_isLeftmost hvalid hline
    rw [anywhere?_eq_some_iff.2 ⟨q, hq, rfl⟩] at hnone
    cases hnone
  · intro h
    cases hfound : anywhere? t with
    | none => rfl
    | some f =>
      obtain ⟨p, hp, -⟩ := anywhere?_eq_some_iff.1 hfound
      exact absurd ⟨p, hp.valid, hp.line⟩ h

/-! ## Places inside names -/

/-- Nothing is found at the front of a line exactly if no parts begin there. -/
theorem here?_eq_none_iff {t : Text} :
    here? t = none ↔ ∀ p : Parts, p.IsValid → p.lead = [] → p.line ≠ t := by
  constructor
  · intro hnone p hvalid hlead hline
    rw [here?_eq_some_iff.2 ⟨p, hvalid, hlead, hline, rfl⟩] at hnone
    cases hnone
  · intro h
    cases hhere : here? t with
    | none => rfl
    | some f =>
      obtain ⟨p, hvalid, hlead, hline, -⟩ := here?_eq_some_iff.1 hhere
      exact absurd hline (h p hvalid hlead)

/-- Inside a name there is no finding if there is none at the place before. -/
theorem here?_inside {c : Char} {t : Text} (hc : isNameChar c = true)
    (hnone : here? (c :: t) = none) : here? t = none := by
  rw [here?_eq_none_iff] at hnone ⊢
  rintro ⟨lead, name, lineDigits, columnDigits, message⟩ hvalid rfl rfl
  -- the name can begin one character earlier
  refine hnone ⟨[], c :: name, lineDigits, columnDigits, message⟩ ⟨⟨by simp, ?_⟩,
    hvalid.lineDigits, hvalid.columnDigits⟩ rfl rfl
  intro d hd
  rcases List.mem_cons.1 hd with rfl | hd
  · exact hc
  · exact hvalid.name.2 d hd

/-- Where no name character stands no finding begins. -/
theorem here?_eq_none_of_not_isNameChar {c : Char} (t : Text) (hc : isNameChar c = false) :
    here? (c :: t) = none := by
  rw [here?_eq_none_iff]
  rintro ⟨lead, name, lineDigits, columnDigits, message⟩ hvalid rfl hline
  cases hname : name with
  | nil => exact hvalid.name.1 hname
  | cons d rest =>
    subst hname
    have hd : isNameChar d = true := hvalid.name.2 d List.mem_cons_self
    have hhead : d = c := (List.cons.inj hline).1
    rw [hhead, hc] at hd
    cases hd

/-- The search that skips the places inside names finds the same, as long as there was no finding at
the beginning of the name that it is in. -/
theorem first?_eq_anywhere?_of_none {t : Text} {insideName : Bool}
    (h : insideName = true → here? t = none) : first? insideName t = anywhere? t := by
  induction t generalizing insideName with
  | nil => rfl
  | cons c t ih =>
    rw [first?, anywhere?]
    cases hc : isNameChar c with
    | false =>
      rw [here?_eq_none_of_not_isNameChar t hc, Option.none_or, ih (by simp)]
      rfl
    | true =>
      cases insideName with
      | true =>
        have hnone := h rfl
        rw [hnone, Option.none_or, ih fun _ => here?_inside hc hnone]
        rfl
      | false =>
        cases hhere : here? (c :: t) with
        | some f => rfl
        | none =>
          rw [Option.none_or, ih fun _ => here?_inside hc hhere]
          rfl

/-- Looking only where a run of name characters begins misses nothing. -/
theorem first?_eq_anywhere? (t : Text) : first? false t = anywhere? t :=
  first?_eq_anywhere?_of_none (by simp)

end ScriptWorkbench.Finding
