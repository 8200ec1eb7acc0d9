import ScriptWorkbench.Text.Basic

/-!
# Paths

A path is text with slashes.  Two paths are the same if they have the same parts: repeated
slashes, a slash at the end and parts `.` do not count, except for a `.` that begins a path.
-/

set_option autoImplicit false

namespace ScriptWorkbench.Path

/-- One step of a path. -/
inductive Part
  /-- The slash that begins an absolute path. -/
  | root
  /-- A `.` at the beginning. -/
  | here
  /-- A `..`. -/
  | up
  | name (n : Text)
deriving DecidableEq, Repr

/-- The pieces of a text between slashes. -/
def pieces : Text → List Text
  | [] => [[]]
  | c :: t =>
    if c = '/' then [] :: pieces t
    else match pieces t with
      | [] => [[c]]
      | p :: ps => (c :: p) :: ps

/-- The step that a piece stands for, if it is one. -/
def partOf? (piece : Text) : Option Part :=
  if piece = [] ∨ piece = ['.'] then none
  else if piece = ['.', '.'] then some .up
  else some (.name piece)

/-- The steps of a path. -/
def parts (path : Text) : List Part :=
  let steps := (pieces path).filterMap partOf?
  match path, pieces path with
  | '/' :: _, _ => .root :: steps
  | _, ['.'] :: _ => .here :: steps
  | _, _ => steps

/-- Two paths with the same parts. -/
def same (p q : Text) : Bool :=
  parts p = parts q

/-- A path below a directory; an absolute path stays as it is. -/
def join (directory path : Text) : Text :=
  match path with
  | '/' :: _ => path
  | _ =>
    if directory = [] ∨ directory.getLast? = some '/' then directory ++ path
    else directory ++ '/' :: path

/-- Pieces of a path up to the last one that is a step of its own. -/
def trimmed (ps : List Text) : List Text :=
  (ps.reverse.dropWhile fun p => partOf? p = none).reverse

/-- Pieces with slashes between them. -/
def ofPieces : List Text → Text
  | [] => []
  | [p] => p
  | p :: ps => p ++ '/' :: ofPieces ps

/-- The path without its last step and without what does not count behind the step before it.  The
root and the empty path have none. -/
def parent? (path : Text) : Option Text :=
  let above := ofPieces (trimmed (trimmed (pieces path)).dropLast)
  match parts path with
  | [] => none
  | [.root] => none
  | [.here] => some []
  | .root :: _ => some (if above = [] then ['/'] else above)
  | .here :: _ => some (if above = [] then ['.'] else above)
  | _ => some above

end ScriptWorkbench.Path
