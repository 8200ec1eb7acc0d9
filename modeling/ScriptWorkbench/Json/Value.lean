import ScriptWorkbench.Json.Mark

/-!
# JSON values and how they are spelled

A JSON text spells a value.  The grammar is given as relations between values and their spellings,
part by part: numbers, the characters of a string, values, and whole documents.  It says nothing
about how a text is read.

A number keeps its digits, because whether it fits depends on how it is written.  Members keep
their order and may repeat a key.
-/

set_option autoImplicit false

namespace ScriptWorkbench.Json

/-- A JSON value. -/
inductive Value
  | null
  | boolean (b : Bool)
  | number (x : Numeral)
  | text (t : Text)
  | array (items : List Value)
  | object (members : List (Text × Value))

/-- A row of decimal digits that is not empty. -/
def IsDigits (t : Text) : Prop :=
  t ≠ [] ∧ ∀ c ∈ t, c.isDigit = true

/-- A row of digits without a zero in front, zero itself apart. -/
def IsWhole (t : Text) : Prop :=
  IsDigits t ∧ (t.head? = some '0' → t = ['0'])

/-- How the point and the digits after it are spelled. -/
inductive SpellsFraction : Option Text → Text → Prop
  | none : SpellsFraction none []
  | some {digits : Text} (h : IsDigits digits) : SpellsFraction (some digits) ('.' :: digits)

/-- How the sign of an exponent is spelled; a plus may be left out. -/
inductive SpellsSign : Bool → Text → Prop
  | bare : SpellsSign false []
  | plus : SpellsSign false ['+']
  | minus : SpellsSign true ['-']

/-- How an exponent is spelled. -/
inductive SpellsExponent : Option (Bool × Text) → Text → Prop
  | none : SpellsExponent none []
  | some {letter : Char} {negative : Bool} {sign digits : Text}
    (hletter : letter = 'e' ∨ letter = 'E') (hsign : SpellsSign negative sign)
    (h : IsDigits digits) :
    SpellsExponent (some (negative, digits)) (letter :: sign ++ digits)

/-- How a number is spelled. -/
inductive SpellsNumeral : Numeral → Text → Prop
  | mk {negative : Bool} {whole : Text} {fraction : Option Text} {exponent : Option (Bool × Text)}
    {point power : Text} (hwhole : IsWhole whole) (hfraction : SpellsFraction fraction point)
    (hexponent : SpellsExponent exponent power) :
    SpellsNumeral
      ⟨negative, whole, fraction.getD [], exponent, fraction.isNone && exponent.isNone⟩
      ((if negative then ['-'] else []) ++ whole ++ point ++ power)

/-- How a 16-bit unit is spelled by its code. -/
inductive SpellsUnit : Nat → Text → Prop
  | mk {a b c d : Char} {n : Nat} (h : hexUnit? a b c d = some n) :
    SpellsUnit n ['\x5c', 'u', a, b, c, d]

/-- How one character of a string is spelled. -/
inductive SpellsChar : Char → Text → Prop
  | plain {c : Char} (hquote : c ≠ '\x22') (hescape : c ≠ '\x5c') (hcontrol : 0x20 ≤ c.toNat) :
    SpellsChar c [c]
  | short {c e : Char} (h : shortEscape? e = some c) : SpellsChar c ['\x5c', e]
  | unit {c : Char} {u : Text} (h : SpellsUnit c.toNat u) : SpellsChar c u
  | pair {c : Char} {high low : Nat} {u v : Text} (hhigh : isHigh high = true)
    (hlow : isLow low = true) (hu : SpellsUnit high u) (hv : SpellsUnit low v)
    (hc : c = joinUnits high low) : SpellsChar c (u ++ v)

/-- How the characters between the quotes of a string are spelled. -/
inductive SpellsChars : Text → Text → Prop
  | nil : SpellsChars [] []
  | cons {c : Char} {t u v : Text} (hc : SpellsChar c u) (ht : SpellsChars t v) :
    SpellsChars (c :: t) (u ++ v)

/-- A string between its quotes. -/
inductive SpellsText : Text → Text → Prop
  | mk {t u : Text} (h : SpellsChars t u) : SpellsText t ('\x22' :: u ++ ['\x22'])

/-- Nothing but space, tabs and line ends. -/
def IsSpaces (t : Text) : Prop :=
  ∀ c ∈ t, isSpace c = true

mutual

/-- How a value is spelled. -/
inductive Spells : Value → Text → Prop
  | null : Spells .null "null".toList
  | yes : Spells (.boolean true) "true".toList
  | no : Spells (.boolean false) "false".toList
  | number {x : Numeral} {u : Text} (h : SpellsNumeral x u) : Spells (.number x) u
  | text {t u : Text} (h : SpellsText t u) : Spells (.text t) u
  | emptyArray {u : Text} (h : IsSpaces u) : Spells (.array []) ('[' :: u ++ [']'])
  | array {v : Value} {vs : List Value} {u : Text} (h : SpellsItems v vs u) :
    Spells (.array (v :: vs)) ('[' :: u ++ [']'])
  | emptyObject {u : Text} (h : IsSpaces u) : Spells (.object []) ('\x7b' :: u ++ ['\x7d'])
  | object {k : Text} {v : Value} {ms : List (Text × Value)} {u : Text}
    (h : SpellsMembers k v ms u) :
    Spells (.object ((k, v) :: ms)) ('\x7b' :: u ++ ['\x7d'])

/-- A value with space around it. -/
inductive SpellsPadded : Value → Text → Prop
  | mk {v : Value} {before u after : Text} (hbefore : IsSpaces before) (h : Spells v u)
    (hafter : IsSpaces after) : SpellsPadded v (before ++ u ++ after)

/-- The items of an array that is not empty, with commas between them. -/
inductive SpellsItems : Value → List Value → Text → Prop
  | last {v : Value} {u : Text} (h : SpellsPadded v u) : SpellsItems v [] u
  | more {v w : Value} {vs : List Value} {u rest : Text} (h : SpellsPadded v u)
    (hrest : SpellsItems w vs rest) : SpellsItems v (w :: vs) (u ++ ',' :: rest)

/-- A key, a colon and a value. -/
inductive SpellsMember : Text → Value → Text → Prop
  | mk {k : Text} {v : Value} {before key after u : Text} (hbefore : IsSpaces before)
    (hkey : SpellsText k key) (hafter : IsSpaces after) (h : SpellsPadded v u) :
    SpellsMember k v (before ++ key ++ after ++ ':' :: u)

/-- The members of an object that is not empty, with commas between them. -/
inductive SpellsMembers : Text → Value → List (Text × Value) → Text → Prop
  | last {k : Text} {v : Value} {u : Text} (h : SpellsMember k v u) : SpellsMembers k v [] u
  | more {k l : Text} {v w : Value} {ms : List (Text × Value)} {u rest : Text}
    (h : SpellsMember k v u) (hrest : SpellsMembers l w ms rest) :
    SpellsMembers k v ((l, w) :: ms) (u ++ ',' :: rest)

end

/-- A JSON text: one value with space around it. -/
abbrev IsDocument (v : Value) (t : Text) : Prop := SpellsPadded v t

end ScriptWorkbench.Json
