import ScriptWorkbench.Json.Value
import ScriptWorkbench.Settings

/-!
# What a settings document says

A document overrides the standard settings.  This file says so on the value of the document: each
field is the value of its key if the object has the key, and the standard one otherwise; a key that
occurs twice, or whose value has the wrong type, makes the document invalid; keys that are not
known do not matter.

The fields are looked up one by one, in no order.  Only objects are read as records and only
strings as colors.
-/

set_option autoImplicit false

namespace ScriptWorkbench

namespace Json.Value

/-- The text of a string. -/
def text? : Value → Option Text
  | .text t => some t
  | _ => none

/-- The text of a string, or nothing for `null`. -/
def optionalText? : Value → Option (Option Text)
  | .null => some none
  | .text t => some (some t)
  | _ => none

/-- The value of a number that is written with digits only and fits into 64 bits. -/
def natural? : Value → Option Nat
  | .number x =>
    let n := Text.digitsValue x.whole
    if x.isInteger ∧ !x.negative ∧ n ≤ Numeral.maxNatural then some n else none
  | _ => none

/-- The texts of an array of strings. -/
def texts? : Value → Option (List Text)
  | .array items => items.mapM text?
  | _ => none

/-- The color that a string names. -/
def color? : Value → Option Color
  | .text t => Color.ofName? t
  | _ => none

/-- The values that an object gives to a key. -/
def valuesOf (key : String) (members : List (Text × Value)) : List Value :=
  (members.filter fun m => m.1 = key.toList).map Prod.snd

/-- The field of a key: what the object gives to it, or `standard` if it has no such key. -/
def field? {α : Type} (read : Value → Option α) (standard : α) (key : String)
    (members : List (Text × Value)) : Option α :=
  match valuesOf key members with
  | [] => some standard
  | [v] => read v
  | _ => none

end Json.Value

open Json Json.Value

/-- The plan that an object describes. -/
def Plan.ofValue? (standard : Plan) : Value → Option Plan
  | .object ms => do
    let interpreter ← field? text? standard.interpreter "interpreter" ms
    let flag ← field? optionalText? standard.flag "script_flag" ms
    let scriptPath ← field? text? standard.scriptPath "script_path" ms
    let pollInterval ← field? natural? standard.pollInterval "poll_interval_ms" ms
    return ⟨interpreter, flag, scriptPath, pollInterval⟩
  | _ => none

/-- The palette that an object describes. -/
def Palette.ofValue? (standard : Palette) : Value → Option Palette
  | .object ms => do
    let keyword ← field? color? standard.keyword "keyword" ms
    let punctuation ← field? color? standard.punctuation "punctuation" ms
    let comment ← field? color? standard.comment "comment" ms
    let default ← field? color? standard.default "default" ms
    let stdout ← field? color? standard.stdout "stdout" ms
    let stderr ← field? color? standard.stderr "stderr" ms
    let location ← field? color? standard.location "location" ms
    return ⟨keyword, punctuation, comment, default, stdout, stderr, location⟩
  | _ => none

/-- The scheme that an object describes. -/
def Scheme.ofValue? (standard : Scheme) : Value → Option Scheme
  | .object ms => do
    let keywords ← field? texts? standard.keywords "keywords" ms
    let palette ← field? (Palette.ofValue? standard.palette) standard.palette "palette" ms
    return ⟨keywords, palette⟩
  | _ => none

/-- The settings that an object describes. -/
def Settings.ofValue? (standard : Settings) : Value → Option Settings
  | .object ms => do
    let plan ← field? (Plan.ofValue? standard.plan) standard.plan "runner" ms
    let scheme ← field? (Scheme.ofValue? standard.scheme) standard.scheme "highlight" ms
    return ⟨plan, scheme⟩
  | _ => none

namespace Settings

/-- The names of the colors of a palette. -/
def colorKeys : List String :=
  ["keyword", "punctuation", "comment", "default", "stdout", "stderr", "location"]

/-- Whether a value is an array. -/
def isArray : Value → Bool
  | .array _ => true
  | _ => false

/-- Whether a value is an object. -/
def isObject : Value → Bool
  | .object _ => true
  | _ => false

/-- The members of an object. -/
def membersOf : Value → List (Text × Value)
  | .object ms => ms
  | _ => []

/-- The document gives records as objects and colors as strings wherever it gives them as either an
array or an object. -/
structure IsPlain (v : Value) : Prop where
  document : isArray v = false
  records : ∀ key ∈ ["runner", "highlight"], ∀ r ∈ valuesOf key (membersOf v), isArray r = false
  palettes : ∀ h ∈ valuesOf "highlight" (membersOf v), ∀ p ∈ valuesOf "palette" (membersOf h),
    isArray p = false
  colors : ∀ h ∈ valuesOf "highlight" (membersOf v), ∀ p ∈ valuesOf "palette" (membersOf h),
    ∀ key ∈ colorKeys, ∀ c ∈ valuesOf key (membersOf p), isObject c = false

end Settings

end ScriptWorkbench
