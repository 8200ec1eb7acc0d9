import ScriptWorkbench.Json.Record
import ScriptWorkbench.Paint.Scheme
import ScriptWorkbench.Run.Plan

/-!
# Settings

Settings say how scripts are run and how they are shown.  A JSON document overrides the standard
ones field by field.
-/

set_option autoImplicit false

namespace ScriptWorkbench

/-- How scripts are run and shown. -/
structure Settings where
  plan : Plan
  scheme : Scheme
deriving DecidableEq, Repr

namespace Settings

open Json

/-- The settings that are used when none are given. -/
def standard (temporary : Text) : Settings :=
  ⟨Plan.standard temporary, {}⟩

/-- Two settings that mean the same. -/
def same (s t : Settings) : Bool :=
  s.plan.same t.plan && s.scheme = t.scheme

/-- The fields of a plan, in the order of an array. -/
def planFields : List (Slot Plan) :=
  [.of "interpreter".toList (readText "a string".toList) fun v p => { p with interpreter := v },
    .of "script_flag".toList (readOptionalText "a string".toList) fun v p => { p with flag := v },
    .of "script_path".toList (readText "path string".toList) fun v p => { p with scriptPath := v },
    .of "poll_interval_ms".toList (readNatural "u64".toList) fun v p =>
      { p with pollInterval := v }]

/-- Reads a color. -/
def readColor : Reader Color :=
  readVariant (Color.all.map fun c => (c.name, c))

/-- The fields of a palette, in the order of an array. -/
def paletteFields : List (Slot Palette) :=
  [.of "keyword".toList readColor fun v p => { p with keyword := v },
    .of "punctuation".toList readColor fun v p => { p with punctuation := v },
    .of "comment".toList readColor fun v p => { p with comment := v },
    .of "default".toList readColor fun v p => { p with default := v },
    .of "stdout".toList readColor fun v p => { p with stdout := v },
    .of "stderr".toList readColor fun v p => { p with stderr := v },
    .of "location".toList readColor fun v p => { p with location := v }]

/-- The fields of a scheme, in the order of an array. -/
def schemeFields : List (Slot Scheme) :=
  [.of "keywords".toList (readTexts "a sequence".toList "a string".toList) fun v s =>
      { s with keywords := v },
    .of "palette".toList (readRecord "struct Palette".toList paletteFields {}) fun v s =>
      { s with palette := v }]

/-- The fields of the settings, in the order of an array. -/
def fields (temporary : Text) : List (Slot Settings) :=
  [.of "runner".toList
      (readRecord "struct RunnerConfig".toList planFields (Plan.standard temporary))
      fun v s => { s with plan := v },
    .of "highlight".toList (readRecord "struct HighlightConfig".toList schemeFields {})
      fun v s => { s with scheme := v }]

/-- The settings of a JSON document. -/
def ofJson (temporary document : Text) : Except Problem Settings :=
  readDocument (readRecord "struct Config".toList (fields temporary) (standard temporary)) document

end Settings

end ScriptWorkbench
