import ScriptWorkbench.Json.String

/-!
# Marks

A JSON text is a row of marks: brackets, commas, colons, and whole words, numbers and strings.
`marks` reads as many of them as it can.  A word, number or string may be faulty; the fault is kept
in its mark, so it counts only once a reader comes to it.  Numbers and strings carry two answers,
one for a reader that wants the value and a more lenient one for a reader that skips it; nothing
after a mark that cannot even be skipped is read.
-/

set_option autoImplicit false

namespace ScriptWorkbench.Json

/-- The three words. -/
inductive Word
  | null
  | yes
  | no
deriving DecidableEq, Repr

/-- What a number or a string holds for a reader, and whether it can be skipped. -/
structure Reading (α : Type) where
  value : Except Fault α
  skipped : Except Fault Unit

/-- One mark of a JSON text. -/
inductive Mark
  | openBrace
  | closeBrace
  | openBracket
  | closeBracket
  | comma
  | colon
  | word (w : Except Fault Word)
  | number (n : Reading Number)
  | string (s : Reading Text)
  /-- A character that begins no mark. -/
  | stray

/-- Space, line feed, tab and carriage return. -/
def isSpace (c : Char) : Bool :=
  c = ' ' || c = '\n' || c = '\t' || c = '\r'

/-- What remains of a text after the letters of a word. -/
def letters : Text → Text → Except Fault Text
  | [], t => .ok t
  | _ :: _, [] => .error .ended
  | e :: es, c :: t => if c = e then letters es t else .error .malformed

/-- The mark of a word whose first letter has been read, and the text after it. -/
def wordMark (w : Word) (rest : Text) (t : Text) : Mark × Text :=
  match letters rest t with
  | .ok t => (.word (.ok w), t)
  | .error f => (.word (.error f), [])

/-- The mark of a number, and the text after it.  To a reader that skips, a number that breaks off
at the end of the text is malformed. -/
def numberMark (t : Text) : Mark × Text :=
  match Numeral.read t with
  | .ok (x, rest) => (.number ⟨x.value, .ok ()⟩, rest)
  | .error f => (.number ⟨.error f, .error .malformed⟩, [])

/-- The mark of a string whose opening quote has been read, and the text after it. -/
def stringMark (t : Text) : Mark × Text :=
  let (ps, ending) := pieces t
  match ending with
  | .ok rest => (.string ⟨joinPieces ending ps, .ok ()⟩, rest)
  | .error f => (.string ⟨joinPieces ending ps, .error f⟩, [])

/-- The mark at the front of `c :: t`, and the text after it. -/
def nextMark (c : Char) (t : Text) : Mark × Text :=
  if c = '\x7b' then (.openBrace, t)
  else if c = '\x7d' then (.closeBrace, t)
  else if c = '[' then (.openBracket, t)
  else if c = ']' then (.closeBracket, t)
  else if c = ',' then (.comma, t)
  else if c = ':' then (.colon, t)
  else if c = 'n' then wordMark .null "ull".toList t
  else if c = 't' then wordMark .yes "rue".toList t
  else if c = 'f' then wordMark .no "alse".toList t
  else if c = '\x22' then stringMark t
  else if c = '-' ∨ c.isDigit then numberMark (c :: t)
  else (.stray, [])

/-- The marks of a text, with `fuel` bounding how many characters are looked at. -/
def marksWithin : Nat → Text → List Mark
  | 0, _ => []
  | _, [] => []
  | fuel + 1, c :: t =>
    if isSpace c then marksWithin fuel t
    else
      let (m, rest) := nextMark c t
      m :: marksWithin fuel rest

/-- The marks of a text. -/
def marks (t : Text) : List Mark :=
  marksWithin t.length t

/-- An array or an object that is open while its contents are skipped. -/
inductive Frame
  | array
  | object
deriving DecidableEq, Repr

/-- What may come next while a value is skipped. -/
inductive Expectation
  | value
  /-- The first element of an array, or its end. -/
  | firstElement
  /-- The first key of an object, or its end. -/
  | firstKey
  | key
  | colon
  /-- What follows a value: a comma or the end of the innermost frame. -/
  | separator
deriving DecidableEq, Repr

/-- Skips the rest of a value, inside the frames that are open.  With no frame open and a value
just finished, the marks that remain are the answer. -/
def skipWithin : List Frame → Expectation → List Mark → Except Fault (List Mark)
  | [], .separator, ms => .ok ms
  | _, _, [] => .error .ended
  | frames, .colon, m :: ms =>
    match m with
    | .colon => skipWithin frames .value ms
    | _ => .error .malformed
  | frames, .key, m :: ms =>
    match m with
    | .string s => match s.skipped with
      | .ok _ => skipWithin frames .colon ms
      | .error f => .error f
    | _ => .error .malformed
  | frames, .firstKey, m :: ms =>
    match m with
    | .string s => match s.skipped with
      | .ok _ => skipWithin frames .colon ms
      | .error f => .error f
    | .closeBrace => skipWithin frames.tail .separator ms
    | _ => .error .malformed
  | frame :: frames, .separator, m :: ms =>
    match frame, m with
    | .array, .comma => skipWithin (frame :: frames) .value ms
    | .object, .comma => skipWithin (frame :: frames) .key ms
    | .array, .closeBracket => skipWithin frames .separator ms
    | .object, .closeBrace => skipWithin frames .separator ms
    | _, _ => .error .malformed
  | frames, expectation, m :: ms =>
    match m with
    | .word (.ok _) => skipWithin frames .separator ms
    | .word (.error f) => .error f
    | .number n => match n.skipped with
      | .ok _ => skipWithin frames .separator ms
      | .error f => .error f
    | .string s => match s.skipped with
      | .ok _ => skipWithin frames .separator ms
      | .error f => .error f
    | .openBracket => skipWithin (.array :: frames) .firstElement ms
    | .openBrace => skipWithin (.object :: frames) .firstKey ms
    | .closeBracket =>
      if expectation = .firstElement then skipWithin frames.tail .separator ms
      else .error .malformed
    | _ => .error .malformed

/-- Skips one value and answers what comes after it. -/
def skip (ms : List Mark) : Except Fault (List Mark) :=
  skipWithin [] .value ms

end ScriptWorkbench.Json
