import ScriptWorkbench.Proofs.Json.Records

/-!
# A settings document only overrides

A document is accepted if no known key occurs twice in its object and every known key that is given
has a value of its type.  Each field of the settings is then what the document gives for it, or the
standard one, whatever the other fields are (`Settings.ofJson_overrides`).
-/

set_option autoImplicit false

namespace ScriptWorkbench.Settings

open Json Json.Value

/-! ## What a document may give -/

/-- The keys of a plan with their types. -/
def planKeys : List (String × (Value → Prop)) :=
  [("interpreter", fun v => (text? v).isSome), ("script_flag", fun v => (optionalText? v).isSome),
    ("script_path", fun v => (text? v).isSome), ("poll_interval_ms", fun v => (natural? v).isSome)]

/-- The keys of a palette with their types. -/
def paletteKeys : List (String × (Value → Prop)) :=
  colorKeys.map fun key => (key, fun v => (color? v).isSome)

/-- The keys of a scheme with their types. -/
def schemeKeys : List (String × (Value → Prop)) :=
  [("keywords", fun v => (texts? v).isSome), ("palette", Fits paletteKeys)]

/-- The keys of the settings with their types. -/
def keys : List (String × (Value → Prop)) :=
  [("runner", Fits planKeys), ("highlight", Fits schemeKeys)]

/-- The value at a path of keys. -/
def valueAt : List String → Value → Option Value
  | [], v => some v
  | key :: path, v => (valuesOf key (membersOf v)).head?.bind (valueAt path)

/-- The field is what the document gives at the path, or the standard one if it gives nothing. -/
def Overrides {α : Type} (read : Value → Option α) (path : List String) (v : Value)
    (standard field : α) : Prop :=
  match valueAt path v with
  | some w => read w = some field
  | none => field = standard

/-- The keys of the colors of a palette with what they set. -/
def colorLeaves : List (String × (Palette → Color)) :=
  [("keyword", Palette.keyword), ("punctuation", Palette.punctuation),
    ("comment", Palette.comment), ("default", Palette.default), ("stdout", Palette.stdout),
    ("stderr", Palette.stderr), ("location", Palette.location)]

/-- Every field is overridden on its own. -/
structure OverriddenBy (d : Settings) (v : Value) (s : Settings) : Prop where
  interpreter :
    Overrides text? ["runner", "interpreter"] v d.plan.interpreter s.plan.interpreter
  flag : Overrides optionalText? ["runner", "script_flag"] v d.plan.flag s.plan.flag
  scriptPath : Overrides text? ["runner", "script_path"] v d.plan.scriptPath s.plan.scriptPath
  pollInterval :
    Overrides natural? ["runner", "poll_interval_ms"] v d.plan.pollInterval s.plan.pollInterval
  keywords : Overrides texts? ["highlight", "keywords"] v d.scheme.keywords s.scheme.keywords
  color : ∀ c ∈ colorLeaves, Overrides color? ["highlight", "palette", c.1] v
    (c.2 d.scheme.palette) (c.2 s.scheme.palette)

/-! ## The fields of the records -/

/-- The fields of a plan. -/
def planParts : List (RecordField Plan) :=
  [⟨"interpreter", Text, readText "a string".toList, text?, Plan.interpreter,
      fun v p => { p with interpreter := v }, fun _ => rfl⟩,
    ⟨"script_flag", Option Text, readOptionalText "a string".toList, optionalText?, Plan.flag,
      fun v p => { p with flag := v }, fun _ => rfl⟩,
    ⟨"script_path", Text, readText "path string".toList, text?, Plan.scriptPath,
      fun v p => { p with scriptPath := v }, fun _ => rfl⟩,
    ⟨"poll_interval_ms", Nat, readNatural "u64".toList, natural?, Plan.pollInterval,
      fun v p => { p with pollInterval := v }, fun _ => rfl⟩]

/-- The field of a color. -/
def colorPart (key : String) (get : Palette → Color) (put : Color → Palette → Palette)
    (h : ∀ p, put (get p) p = p) : RecordField Palette :=
  ⟨key, Color, readColor, color?, get, put, h⟩

/-- The colors of a palette as fields. -/
def paletteParts : List (RecordField Palette) :=
  [colorPart "keyword" Palette.keyword (fun v p => { p with keyword := v }) fun _ => rfl,
    colorPart "punctuation" Palette.punctuation (fun v p => { p with punctuation := v })
      fun _ => rfl,
    colorPart "comment" Palette.comment (fun v p => { p with comment := v }) fun _ => rfl,
    colorPart "default" Palette.default (fun v p => { p with default := v }) fun _ => rfl,
    colorPart "stdout" Palette.stdout (fun v p => { p with stdout := v }) fun _ => rfl,
    colorPart "stderr" Palette.stderr (fun v p => { p with stderr := v }) fun _ => rfl,
    colorPart "location" Palette.location (fun v p => { p with location := v }) fun _ => rfl]

/-- The fields of a scheme. -/
def schemeParts : List (RecordField Scheme) :=
  [⟨"keywords", List Text, readTexts "a sequence".toList "a string".toList, texts?,
      Scheme.keywords, fun v s => { s with keywords := v }, fun _ => rfl⟩,
    ⟨"palette", Palette, readRecord "struct Palette".toList paletteFields {},
      Palette.ofValue? {}, Scheme.palette, fun v s => { s with palette := v }, fun _ => rfl⟩]

/-- The two parts of the settings as fields. -/
def parts (temporary : Text) : List (RecordField Settings) :=
  [⟨"runner", Plan, readRecord "struct RunnerConfig".toList planFields (Plan.standard temporary),
      Plan.ofValue? (Plan.standard temporary), Settings.plan, fun v s => { s with plan := v },
      fun _ => rfl⟩,
    ⟨"highlight", Scheme, readRecord "struct HighlightConfig".toList schemeFields {},
      Scheme.ofValue? {}, Settings.scheme, fun v s => { s with scheme := v }, fun _ => rfl⟩]

/-- The fields of a plan do not concern each other. -/
theorem planParts_apart : planParts.Pairwise RecordField.Apart := by
  simp [planParts, RecordField.Apart]

/-- The colors of a palette do not concern each other. -/
theorem paletteParts_apart : paletteParts.Pairwise RecordField.Apart := by
  simp [paletteParts, colorPart, RecordField.Apart]

/-- The fields of a scheme do not concern each other. -/
theorem schemeParts_apart : schemeParts.Pairwise RecordField.Apart := by
  simp [schemeParts, RecordField.Apart]

/-- The two parts of the settings do not concern each other. -/
theorem parts_apart (temporary : Text) : (parts temporary).Pairwise RecordField.Apart := by
  simp [parts, RecordField.Apart]

/-- A plan is read from a value field by field. -/
theorem ofValue?_planParts (d : Plan) : RecordField.ofValue? planParts d = Plan.ofValue? d := by
  funext v
  cases v with
  | object ms => simp [RecordField.ofValue?, planParts, Plan.ofValue?]
  | _ => rfl

/-- A palette is read from a value color by color. -/
theorem ofValue?_paletteParts (d : Palette) :
    RecordField.ofValue? paletteParts d = Palette.ofValue? d := by
  funext v
  cases v with
  | object ms => simp [RecordField.ofValue?, paletteParts, colorPart, Palette.ofValue?]
  | _ => rfl

/-- A scheme is read from a value field by field. -/
theorem ofValue?_schemeParts : RecordField.ofValue? schemeParts {} = Scheme.ofValue? {} := by
  funext v
  cases v with
  | object ms => simp [RecordField.ofValue?, schemeParts, Scheme.ofValue?]
  | _ => rfl

/-- Settings are read from a value part by part. -/
theorem ofValue?_parts (temporary : Text) :
    RecordField.ofValue? (parts temporary) (standard temporary) =
      Settings.ofValue? (standard temporary) := by
  funext v
  cases v with
  | object ms => simp [RecordField.ofValue?, parts, standard, Settings.ofValue?]
  | _ => rfl

/-! ## Reading the records -/

/-- A color is read by its name. -/
theorem reads_color {v : Value} (hv : isObject v = false) : Reads readColor color? v := by
  intro rest
  rw [readColor, reads_variant _ hv]
  cases v with
  | text t =>
    simp only [text?, color?, Color.ofName?, Option.bind_some, List.find?_map, Option.map_map]
    cases hfind : Color.all.find? fun c => c.name = t <;> simp [Function.comp_def, hfind]
  | _ => rfl

/-- A plan is read from an object as from its value. -/
theorem reads_plan (temporary : Text) {v : Value} (hv : isArray v = false) :
    Reads (readRecord "struct RunnerConfig".toList planFields (Plan.standard temporary))
      (Plan.ofValue? (Plan.standard temporary)) v := by
  rw [← ofValue?_planParts]
  apply reads_record planParts_apart _ _ hv
  simp only [planParts, List.forall_mem_cons]
  exact ⟨fun w _ => reads_text _ w, fun w _ => reads_optionalText _ w, fun w _ => reads_text _ w,
    fun w _ => reads_natural _ w, by simp⟩

/-- A palette is read from an object as from its value. -/
theorem reads_palette {v : Value} (hv : isArray v = false)
    (hcolors : ∀ key ∈ colorKeys, ∀ c ∈ valuesOf key (membersOf v), isObject c = false) :
    Reads (readRecord "struct Palette".toList paletteFields {}) (Palette.ofValue? {}) v := by
  rw [← ofValue?_paletteParts]
  apply reads_record paletteParts_apart _ _ hv
  have hreads : ∀ key ∈ colorKeys, ∀ c ∈ valuesOf key (membersOf v), Reads readColor color? c :=
    fun key hkey c hc => reads_color (hcolors key hkey c hc)
  simp only [paletteParts, List.forall_mem_cons]
  exact ⟨hreads _ (by decide), hreads _ (by decide), hreads _ (by decide), hreads _ (by decide),
    hreads _ (by decide), hreads _ (by decide), hreads _ (by decide), by simp⟩

/-- A scheme is read from an object as from its value. -/
theorem reads_scheme {v : Value} (hv : isArray v = false)
    (hpalettes : ∀ p ∈ valuesOf "palette" (membersOf v), isArray p = false)
    (hcolors : ∀ p ∈ valuesOf "palette" (membersOf v),
      ∀ key ∈ colorKeys, ∀ c ∈ valuesOf key (membersOf p), isObject c = false) :
    Reads (readRecord "struct HighlightConfig".toList schemeFields {}) (Scheme.ofValue? {}) v := by
  rw [← ofValue?_schemeParts]
  apply reads_record schemeParts_apart _ _ hv
  simp only [schemeParts, List.forall_mem_cons]
  exact ⟨fun w _ => reads_texts _ _ w, fun p hp => reads_palette (hpalettes p hp) (hcolors p hp),
    by simp⟩

/-- Settings are read from an object as from its value. -/
theorem reads_settings (temporary : Text) {v : Value} (hv : IsPlain v) :
    Reads (readRecord "struct Config".toList (fields temporary) (standard temporary))
      (Settings.ofValue? (standard temporary)) v := by
  rw [← ofValue?_parts]
  apply reads_record (parts_apart temporary) _ _ hv.document
  simp only [parts, List.forall_mem_cons]
  exact ⟨fun r hr => reads_plan temporary (hv.records "runner" (by decide) r hr),
    fun h hh => reads_scheme (hv.records "highlight" (by decide) h hh) (hv.palettes h hh)
      (hv.colors h hh), by simp⟩

/-- What a document makes of the standard settings is what its value says. -/
theorem toOption_ofJson (temporary : Text) {v : Value} {t : Text} (hd : IsDocument v t)
    (hv : IsPlain v) :
    (ofJson temporary t).toOption = Settings.ofValue? (standard temporary) v := by
  have hread := reads_settings temporary hv []
  rw [List.append_nil, ← marks_document hd] at hread
  rw [ofJson, readDocument, toOption_bind, hread]
  cases Settings.ofValue? (standard temporary) v <;> rfl

/-! ## What is accepted -/

/-- A palette can be read exactly from a value that fits its colors. -/
theorem isSome_palette (d : Palette) (v : Value) :
    (Palette.ofValue? d v).isSome = true ↔ Fits paletteKeys v := by
  rw [← ofValue?_paletteParts, RecordField.isSome_ofValue?]
  rfl

/-- A plan can be read exactly from a value that fits its fields. -/
theorem isSome_plan (d : Plan) (v : Value) :
    (Plan.ofValue? d v).isSome = true ↔ Fits planKeys v := by
  rw [← ofValue?_planParts, RecordField.isSome_ofValue?]
  rfl

/-- A scheme can be read exactly from a value that fits its fields. -/
theorem isSome_scheme (v : Value) :
    (Scheme.ofValue? {} v).isSome = true ↔ Fits schemeKeys v := by
  rw [← ofValue?_schemeParts, RecordField.isSome_ofValue?]
  simp [schemeParts, schemeKeys, RecordField.wants, isSome_palette]

/-- Settings can be read exactly from a value that fits all keys. -/
theorem isSome_settings (temporary : Text) (v : Value) :
    (Settings.ofValue? (standard temporary) v).isSome = true ↔ Fits keys v := by
  rw [← ofValue?_parts, RecordField.isSome_ofValue?]
  simp [parts, keys, RecordField.wants, isSome_plan, isSome_scheme]

/-! ## What comes out -/

/-- A field that could be read has the value that is given, or the standard one. -/
theorem overrides_of_field? {α : Type} {read : Value → Option α} {standard a : α} {key : String}
    {ms : List (Text × Value)} (h : field? read standard key ms = some a) :
    Overrides read [key] (.object ms) standard a := by
  have hvalue : valueAt [key] (.object ms) = (valuesOf key ms).head? := by
    simp [valueAt, membersOf]
  simp only [Overrides, hvalue]
  unfold field? at h
  split at h <;> simp_all

/-- What a record says of a field at a path, its object says at the path below the record's key. -/
theorem overrides_below {α β : Type} (leaf : β → α) {readRecord : Value → Option β}
    {read : Value → Option α} {d b : β} {key : String} {path : List String}
    {ms : List (Text × Value)}
    (h : field? readRecord d key ms = some b)
    (hleaf : ∀ r, readRecord r = some b → Overrides read path r (leaf d) (leaf b)) :
    Overrides read (key :: path) (.object ms) (leaf d) (leaf b) := by
  have hvalue : valueAt (key :: path) (.object ms) =
      (valuesOf key ms).head?.bind (valueAt path) := rfl
  simp only [Overrides, hvalue]
  unfold field? at h
  split at h
  next hnone =>
    obtain rfl := Option.some.inj h
    simp [hnone]
  next r hone => simpa [hone, Overrides] using hleaf r h
  next => simp at h

/-- Every field of a plan has the value that is given, or the standard one. -/
theorem plan_overrides {d p : Plan} {v : Value} (h : Plan.ofValue? d v = some p) :
    Overrides text? ["interpreter"] v d.interpreter p.interpreter ∧
      Overrides optionalText? ["script_flag"] v d.flag p.flag ∧
      Overrides text? ["script_path"] v d.scriptPath p.scriptPath ∧
      Overrides natural? ["poll_interval_ms"] v d.pollInterval p.pollInterval := by
  cases v with
  | object ms =>
    simp only [Plan.ofValue?, Option.bind_eq_bind, Option.bind_eq_some_iff, Option.pure_def,
      Option.some.injEq] at h
    obtain ⟨interpreter, hinterpreter, flag, hflag, scriptPath, hscriptPath, pollInterval,
      hpollInterval, rfl⟩ := h
    exact ⟨overrides_of_field? hinterpreter, overrides_of_field? hflag,
      overrides_of_field? hscriptPath, overrides_of_field? hpollInterval⟩
  | _ => simp [Plan.ofValue?] at h

/-- Every color of a palette is the one that is given, or the standard one. -/
theorem palette_overrides {d p : Palette} {v : Value} (h : Palette.ofValue? d v = some p) :
    ∀ c ∈ colorLeaves, Overrides color? [c.1] v (c.2 d) (c.2 p) := by
  cases v with
  | object ms =>
    simp only [Palette.ofValue?, Option.bind_eq_bind, Option.bind_eq_some_iff, Option.pure_def,
      Option.some.injEq] at h
    obtain ⟨keyword, hkeyword, punctuation, hpunctuation, comment, hcomment, default, hdefault,
      stdout, hstdout, stderr, hstderr, location, hlocation, rfl⟩ := h
    simp only [colorLeaves, List.forall_mem_cons]
    exact ⟨overrides_of_field? hkeyword, overrides_of_field? hpunctuation,
      overrides_of_field? hcomment, overrides_of_field? hdefault, overrides_of_field? hstdout,
      overrides_of_field? hstderr, overrides_of_field? hlocation, by simp⟩
  | _ => simp [Palette.ofValue?] at h

/-- The keywords and every color of a scheme are those that are given, or the standard ones. -/
theorem scheme_overrides {d s : Scheme} {v : Value} (h : Scheme.ofValue? d v = some s) :
    Overrides texts? ["keywords"] v d.keywords s.keywords ∧
      ∀ c ∈ colorLeaves, Overrides color? ["palette", c.1] v (c.2 d.palette) (c.2 s.palette) := by
  cases v with
  | object ms =>
    simp only [Scheme.ofValue?, Option.bind_eq_bind, Option.bind_eq_some_iff, Option.pure_def,
      Option.some.injEq] at h
    obtain ⟨keywords, hkeywords, palette, hpalette, rfl⟩ := h
    exact ⟨overrides_of_field? hkeywords, fun c hc =>
      overrides_below c.2 hpalette fun r hr => palette_overrides hr c hc⟩
  | _ => simp [Scheme.ofValue?] at h

/-- All that settings say is what is given, or the standard. -/
theorem overriddenBy_of_ofValue? {d s : Settings} {v : Value}
    (h : Settings.ofValue? d v = some s) : OverriddenBy d v s := by
  cases v with
  | object ms =>
    simp only [Settings.ofValue?, Option.bind_eq_bind, Option.bind_eq_some_iff, Option.pure_def,
      Option.some.injEq] at h
    obtain ⟨plan, hplan, scheme, hscheme, rfl⟩ := h
    exact
      { interpreter := overrides_below Plan.interpreter hplan fun r hr => (plan_overrides hr).1
        flag := overrides_below Plan.flag hplan fun r hr => (plan_overrides hr).2.1
        scriptPath := overrides_below Plan.scriptPath hplan fun r hr => (plan_overrides hr).2.2.1
        pollInterval := overrides_below Plan.pollInterval hplan fun r hr =>
          (plan_overrides hr).2.2.2
        keywords := overrides_below Scheme.keywords hscheme fun r hr => (scheme_overrides hr).1
        color := fun c hc => overrides_below (fun s => c.2 s.palette) hscheme fun r hr =>
          (scheme_overrides hr).2 c hc }
  | _ => simp [Settings.ofValue?] at h

/-- A document is read if and only if its object has each known key at most once and with a value of
its type, and each field of the settings is then the one that the document gives, or the standard
one. -/
theorem ofJson_overrides {temporary t : Text} {v : Value} (hd : IsDocument v t)
    (hv : IsPlain v) :
    ((∃ s, ofJson temporary t = .ok s) ↔ Fits keys v) ∧
      ∀ s, ofJson temporary t = .ok s → OverriddenBy (standard temporary) v s := by
  have hvalue := toOption_ofJson temporary hd hv
  constructor
  · rw [← isSome_settings temporary, ← hvalue]
    cases ofJson temporary t <;> simp [Except.toOption]
  · intro s hs
    rw [hs] at hvalue
    exact overriddenBy_of_ofValue? hvalue.symm

/-- A text without quotes, backslashes and control characters is spelled as it is. -/
theorem spellsText_plain {t : Text}
    (h : ∀ c ∈ t, c ≠ '\x22' ∧ c ≠ '\x5c' ∧ 0x20 ≤ c.toNat) :
    SpellsText t ('\x22' :: t ++ ['\x22']) := by
  refine .mk ?_
  induction t with
  | nil => exact .nil
  | cons c t ih =>
    obtain ⟨⟨hquote, hescape, hcontrol⟩, h⟩ := List.forall_mem_cons.1 h
    exact .cons (.plain hquote hescape hcontrol) (ih h)

/-- A value needs no space around it. -/
theorem spellsPadded_bare {v : Value} {u : Text} (h : Spells v u) : SpellsPadded v u := by
  have hspaces : IsSpaces [] := by simp [IsSpaces]
  simpa using SpellsPadded.mk hspaces h hspaces

/-- A member needs no space around its key. -/
theorem spellsMember_bare {k key : Text} {v : Value} {u : Text} (hkey : SpellsText k key)
    (h : Spells v u) : SpellsMember k v (key ++ ':' :: u) := by
  have hspaces : IsSpaces [] := by simp [IsSpaces]
  simpa using SpellsMember.mk hspaces hkey hspaces (spellsPadded_bare h)

/-- Keys in any order and spelling, a key that is not known, and one color of a palette. -/
theorem ofJson_overrides_in_part :
    ∃ s, ofJson "/tmp".toList
        ("\x7b\x22highlight\x22:\x7b\x22palette\x22:".toList ++
          "\x7b\x22stderr\x22:\x22cyan\x22\x7d\x7d,\x22x\x22:[true,\x7b \x7d],".toList ++
          "\x22runn\x5cu0065r\x22:\x7b\x22script_flag\x22:null\x7d\x7d".toList) = .ok s ∧
      s.plan.flag = none ∧ s.plan.interpreter = "kotlinc".toList ∧
      s.scheme.palette.stderr = .cyan ∧ s.scheme.palette.stdout = .gray := by
  let highlight : Value :=
    .object [("palette".toList, .object [("stderr".toList, .text "cyan".toList)])]
  let extra : Value := .array [.boolean true, .object []]
  let runner : Value := .object [("script_flag".toList, .null)]
  let v : Value :=
    .object [("highlight".toList, highlight), ("x".toList, extra), ("runner".toList, runner)]
  have hhighlight : SpellsMember "highlight".toList highlight _ :=
    spellsMember_bare (spellsText_plain (by simp))
      (.object (.last (spellsMember_bare (spellsText_plain (by simp))
        (.object (.last (spellsMember_bare (spellsText_plain (by simp))
          (.text (spellsText_plain (by simp)))))))))
  have hspace : IsSpaces [' '] := by simp [IsSpaces, isSpace]
  have hextra : SpellsMember "x".toList extra _ :=
    spellsMember_bare (spellsText_plain (by simp))
      (.array (.more (spellsPadded_bare .yes) (.last (spellsPadded_bare (.emptyObject hspace)))))
  have hplain : ∀ {c : Char}, c ≠ '\x22' ∧ c ≠ '\x5c' ∧ 0x20 ≤ c.toNat → SpellsChar c [c] :=
    fun h => .plain h.1 h.2.1 h.2.2
  have hkey : SpellsText "runner".toList _ :=
    .mk (.cons (hplain (by decide)) (.cons (hplain (by decide)) (.cons (hplain (by decide))
      (.cons (hplain (by decide)) (.cons (.unit (@SpellsUnit.mk '0' '0' '6' '5' _ rfl))
        (.cons (hplain (by decide)) .nil))))))
  have hrunner : SpellsMember "runner".toList runner _ :=
    spellsMember_bare hkey
      (.object (.last (spellsMember_bare (spellsText_plain (by simp)) .null)))
  have hd : IsDocument v _ :=
    spellsPadded_bare (.object (.more hhighlight (.more hextra (.last hrunner))))
  have hv : IsPlain v := ⟨by decide, by decide, by decide, by decide⟩
  obtain ⟨hread, hover⟩ := @ofJson_overrides "/tmp".toList _ _ hd hv
  obtain ⟨s, hs⟩ := hread.2 ((isSome_settings "/tmp".toList v).1 (by decide))
  have ho := hover s hs
  have hstderr := ho.color ("stderr", Palette.stderr) (by simp [colorLeaves])
  have hstdout := ho.color ("stdout", Palette.stdout) (by simp [colorLeaves])
  exact ⟨s, hs, (Option.some.inj ho.flag).symm, ho.interpreter,
    (Option.some.inj hstderr).symm, hstdout⟩

end ScriptWorkbench.Settings
