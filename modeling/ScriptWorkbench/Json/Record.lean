import ScriptWorkbench.Json.Mark
import ScriptWorkbench.Decimal.Written

/-!
# Reading records from marks

A record is read from an object, whose unknown keys are skipped and whose known keys may come in
any order but only once, or from an array, whose elements are the fields in order.  Fields that do
not occur keep the value they had.  Reading is one pass over the marks, so of two problems the
first one counts.
-/

set_option autoImplicit false

namespace ScriptWorkbench.Json

/-- A value as a message about it names it. -/
inductive Found
  | null
  | boolean (b : Bool)
  | number (n : Number)
  | text (t : Text)
  | sequence
  | map
deriving DecidableEq, Repr

/-- A text between backticks. -/
def ticked (t : Text) : Text :=
  '\x60' :: t ++ ['\x60']

/-- A value in words. -/
def Found.describe : Found → Text
  | .null => "null".toList
  | .boolean b => "boolean ".toList ++ ticked (if b then "true" else "false").toList
  | .number (.natural n) => "integer ".toList ++ ticked (Text.decimal n)
  | .number (.negative n) => "integer ".toList ++ ticked ('-' :: Text.decimal (n + 1))
  | .number (.real bits) => "floating point ".toList ++ ticked (Decimal.written .standard bits)
  | .text t => "string ".toList ++ t.quoted
  | .sequence => "sequence".toList
  | .map => "map".toList

/-- A well-formed value that is not what was wanted. -/
inductive Mismatch
  /-- A value of another type. -/
  | type (found : Found) (expected : Text)
  /-- A value of the type, but out of range. -/
  | range (found : Found) (expected : Text)
  /-- A name that is not among the allowed ones. -/
  | variant (name : Text) (allowed : List Text)
  /-- A known key that occurs again. -/
  | duplicate (key : Text)
deriving DecidableEq, Repr

/-- Texts with a comma and a space between them. -/
def commaList : List Text → Text
  | [] => []
  | [t] => t
  | t :: ts => t ++ ", ".toList ++ commaList ts

/-- A mismatch in words. -/
def Mismatch.message : Mismatch → Text
  | .type found expected =>
    "invalid type: ".toList ++ found.describe ++ ", expected ".toList ++ expected
  | .range found expected =>
    "invalid value: ".toList ++ found.describe ++ ", expected ".toList ++ expected
  | .variant name allowed =>
    "unknown variant ".toList ++ ticked name ++ ", expected one of ".toList ++
      commaList (allowed.map ticked)
  | .duplicate key => "duplicate field ".toList ++ ticked key

/-- Why a document cannot be read. -/
inductive Problem
  /-- It is not JSON. -/
  | fault (f : Fault)
  /-- It is JSON up to a value that does not fit. -/
  | mismatch (m : Mismatch)
deriving DecidableEq, Repr

/-- Reads a value at the front of a row of marks and answers what comes after it. -/
abbrev Reader (α : Type) := List Mark → Except Problem (α × List Mark)

/-- The part of a mark that a reader wants. -/
def Reading.get {α : Type} (r : Reading α) : Except Problem α :=
  r.value.mapError .fault

/-- The problem with a value of the wrong type.  Words, numbers and strings are read whole first. -/
def wrongType {α : Type} (expected : Text) (ms : List Mark) : Except Problem α :=
  match ms with
  | [] => .error (.fault .ended)
  | .word (.error f) :: _ => .error (.fault f)
  | .word (.ok .null) :: _ => .error (.mismatch (.type .null expected))
  | .word (.ok .yes) :: _ => .error (.mismatch (.type (.boolean true) expected))
  | .word (.ok .no) :: _ => .error (.mismatch (.type (.boolean false) expected))
  | .number n :: _ => n.get.bind fun n => .error (.mismatch (.type (.number n) expected))
  | .string s :: _ => s.get.bind fun t => .error (.mismatch (.type (.text t) expected))
  | .openBracket :: _ => .error (.mismatch (.type .sequence expected))
  | .openBrace :: _ => .error (.mismatch (.type .map expected))
  | _ :: _ => .error (.fault .malformed)

/-- Reads a string. -/
def readText (expected : Text) : Reader Text
  | .string s :: ms => s.get.map fun t => (t, ms)
  | ms => wrongType expected ms

/-- Reads a string or `null`. -/
def readOptionalText (expected : Text) : Reader (Option Text)
  | .word (.ok .null) :: ms => .ok (none, ms)
  | ms => (readText expected ms).map fun (t, ms) => (some t, ms)

/-- Reads a natural number.  A negative integer has the right type but not the right range. -/
def readNatural (expected : Text) : Reader Nat
  | .number n :: ms => n.get.bind fun
    | .natural n => .ok (n, ms)
    | .negative n => .error (.mismatch (.range (.number (.negative n)) expected))
    | .real bits => .error (.mismatch (.type (.number (.real bits)) expected))
  | ms => wrongType expected ms

/-- Reads the key of a member. -/
def readKey : Reader Text
  | [] => .error (.fault .ended)
  | .string s :: ms => s.get.map fun t => (t, ms)
  | _ :: _ => .error (.fault .malformed)

/-- Passes a colon. -/
def passColon : List Mark → Except Problem (List Mark)
  | [] => .error (.fault .ended)
  | .colon :: ms => .ok ms
  | _ :: _ => .error (.fault .malformed)

/-- Where a reader stands inside an array. -/
inductive Place
  | first
  | afterItem
  | afterComma
deriving DecidableEq, Repr

/-- Reads the strings of an array whose bracket has been passed. -/
def textItems (expected : Text) : Place → List Mark → Except Problem (List Text × List Mark)
  | _, [] => .error (.fault .ended)
  | .afterItem, m :: ms =>
    match m with
    | .closeBracket => .ok ([], ms)
    | .comma => textItems expected .afterComma ms
    | _ => .error (.fault .malformed)
  | place, m :: ms =>
    match m with
    | .string s => s.get.bind fun t =>
      (textItems expected .afterItem ms).map fun (ts, ms) => (t :: ts, ms)
    | .closeBracket => if place = .first then .ok ([], ms) else .error (.fault .malformed)
    | m => wrongType expected (m :: ms)

/-- Reads an array of strings. -/
def readTexts (expected item : Text) : Reader (List Text)
  | .openBracket :: ms => textItems item .first ms
  | ms => wrongType expected ms

/-- Reads a name that stands for a value: as a string, or as an object with the name as its only
key and `null` as its value.  Nothing else begins such a value. -/
def readVariant {α : Type} (names : List (Text × α)) : Reader α
  | [] => .error (.fault .ended)
  | .string s :: ms => s.get.bind fun name => (known name).map fun a => (a, ms)
  | .openBrace :: ms => do
    let (name, ms) ← readKey ms
    let a ← known name
    let ms ← passColon ms
    match ms with
    | .word (.ok .null) :: .closeBrace :: ms => .ok (a, ms)
    | [.word (.ok .null)] => .error (.fault .ended)
    | .word (.ok .null) :: _ => .error (.fault .malformed)
    | ms => wrongType "unit".toList ms
  | _ :: _ => .error (.fault .malformed)
where
  /-- The value of a name. -/
  known (name : Text) : Except Problem α :=
    match names.find? fun n => n.1 = name with
    | some n => .ok n.2
    | none => .error (.mismatch (.variant name (names.map Prod.fst)))

/-- One field of a record: its key, and how its value changes the record. -/
structure Slot (σ : Type) where
  key : Text
  read : σ → Reader σ

/-- A field that is read on its own and then put into the record. -/
def Slot.of {σ α : Type} (key : Text) (reader : Reader α) (put : α → σ → σ) : Slot σ :=
  ⟨key, fun s ms => (reader ms).map fun (a, ms) => (put a s, ms)⟩

/-- Reads fields from the elements of an array. -/
def fieldItems {σ : Type} : List (Slot σ) → Bool → σ → Reader σ
  | _, _, _, [] => .error (.fault .ended)
  | _, _, s, .closeBracket :: ms => .ok (s, ms)
  | [], _, _, _ :: _ => .error (.fault .malformed)
  | f :: fs, true, s, ms => do
    let (s, ms) ← f.read s ms
    fieldItems fs false s ms
  | f :: fs, false, s, .comma :: ms => do
    let (s, ms) ← f.read s ms
    fieldItems fs false s ms
  | _ :: _, false, _, _ :: _ => .error (.fault .malformed)

/-- Passes the comma before a member, unless it is the first one. -/
def passComma (first : Bool) : List Mark → Except Problem (List Mark)
  | .comma :: ms => if first then .error (.fault .malformed) else .ok ms
  | ms => if first then .ok ms else .error (.fault .malformed)

/-- Reads fields from the members of an object.  `seen` holds the known keys so far, and `fuel`
bounds the number of members. -/
def fieldMembers {σ : Type} (fields : List (Slot σ)) :
    Nat → Bool → List Text → σ → Reader σ
  | 0, _, _, _, _ => .error (.fault .ended)
  | _, _, _, _, [] => .error (.fault .ended)
  | _, _, _, s, .closeBrace :: ms => .ok (s, ms)
  | fuel + 1, first, seen, s, ms => do
    let ms ← passComma first ms
    let (key, ms) ← readKey ms
    match fields.find? fun f => f.key = key with
    | some f =>
      if key ∈ seen then .error (.mismatch (.duplicate key))
      else
        let ms ← passColon ms
        let (s, ms) ← f.read s ms
        fieldMembers fields fuel false (key :: seen) s ms
    | none =>
      let ms ← passColon ms
      let ms ← (skip ms).mapError .fault
      fieldMembers fields fuel false seen s ms

/-- Reads a record from an array or an object. -/
def readRecord {σ : Type} (expected : Text) (fields : List (Slot σ)) (start : σ) : Reader σ
  | .openBracket :: ms => fieldItems fields true start ms
  | .openBrace :: ms => fieldMembers fields ms.length true [] start ms
  | ms => wrongType expected ms

/-- Reads a whole text. -/
def readDocument {α : Type} (reader : Reader α) (t : Text) : Except Problem α := do
  let (a, rest) ← reader (marks t)
  if rest.isEmpty then .ok a else .error (.fault .malformed)

end ScriptWorkbench.Json
