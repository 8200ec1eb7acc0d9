import ScriptWorkbench.Host.Fault
import ScriptWorkbench.Host.Path
import ScriptWorkbench.Text.Utf8

/-!
# Files and directories

A tree holds files and directories by name.  A place is the row of names that leads to one of them
from the root, which is always a directory.  Paths are followed from a working directory: every
step has to start in a directory that exists, so the order of faults is the order of the steps.

Reading and writing answer with what was read or with the new tree, or else with the fault.
`contents_of_write` says that what a successful write has stored is what is read afterwards.
-/

set_option autoImplicit false

namespace ScriptWorkbench.Host

/-- The names that lead from the root to a file or a directory. -/
abbrev Place := List Text

/-- What has a name. -/
inductive Node
  | file (contents : Bytes) (executable : Bool)
  | directory (entries : List (Text × Node))

/-- The entries of a directory.  The tree of a machine is those of its root. -/
abbrev Tree := List (Text × Node)

namespace Tree

/-- What is at a place, if anything is. -/
def at? : Tree → Place → Option Node
  | t, [] => some (.directory t)
  | t, name :: rest =>
    match t.lookup name with
    | some (.directory below) => at? below rest
    | found => if rest = [] then found else none

/-- Whether a directory is at a place. -/
def isDirectory (t : Tree) (p : Place) : Bool :=
  match t.at? p with
  | some (.directory _) => true
  | _ => false

/-- The entries under a name; none if it is not a directory's. -/
def below (t : Tree) (name : Text) : Tree :=
  match t.lookup name with
  | some (.directory entries) => entries
  | _ => []

/-- Gives a name to a node in place of the one that had it. -/
def set (t : Tree) (name : Text) (n : Node) : Tree :=
  (name, n) :: t.filter fun e => e.1 ≠ name

/-- Puts a node at a place other than the root. -/
def put : Tree → Place → Node → Tree
  | t, [], _ => t
  | t, name :: rest, n =>
    t.set name (if rest = [] then n else .directory (put (t.below name) rest n))

/-- Removes what is at a place other than the root. -/
def remove : Tree → Place → Tree
  | t, [] => t
  | t, name :: rest =>
    if rest = [] then t.filter fun e => e.1 ≠ name
    else match t.lookup name with
      | some (.directory entries) => t.set name (.directory (remove entries rest))
      | _ => t

/-- What is put under a name is found under it. -/
theorem lookup_set_self (t : Tree) (name : Text) (n : Node) :
    (t.set name n).lookup name = some n := by
  simp [set]

/-- What is put under a name leaves the other names alone. -/
theorem lookup_set_of_ne {t : Tree} {name other : Text} {n : Node} (h : other ≠ name) :
    (t.set name n).lookup other = t.lookup other := by
  rw [set, List.lookup_cons, beq_false_of_ne h]
  induction t with
  | nil => rfl
  | cons e es ih =>
    obtain ⟨m, k⟩ := e
    by_cases hm : m = name
    · subst hm
      simpa [List.lookup_cons, beq_false_of_ne h] using ih
    · by_cases ho : other = m
      · subst ho
        simp [hm]
      · simpa [hm, List.lookup_cons, beq_false_of_ne ho] using ih

/-- What is put at a place stands there. -/
theorem at?_put {t : Tree} {p : Place} {n : Node} (h : p ≠ []) : (t.put p n).at? p = some n := by
  induction p generalizing t with
  | nil => exact absurd rfl h
  | cons name rest ih =>
    rw [put, at?, lookup_set_self]
    by_cases hrest : rest = []
    · subst hrest
      cases n <;> simp [at?]
    · simpa [hrest] using ih hrest

/-- A directory stays one when something is put where no directory was. -/
theorem isDirectory_put {t : Tree} {p q : Place} {n : Node} (hp : t.isDirectory p = false)
    (hq : t.isDirectory q = true) : (t.put p n).isDirectory q = true := by
  induction p generalizing t q with
  | nil => simp [isDirectory, at?] at hp
  | cons name rest ih =>
    cases q with
    | nil => simp [isDirectory, at?]
    | cons other more =>
      by_cases ho : other = name
      · subst ho
        cases hl : t.lookup other with
        | none => simp [isDirectory, at?, hl] at hq
        | some node =>
          cases node with
          | file c x =>
            by_cases hm : more = [] <;> simp [isDirectory, at?, hl, hm] at hq
          | directory entries =>
            have hbelow : t.below other = entries := by simp [below, hl]
            have hrest : rest ≠ [] := by
              rintro rfl
              simp [isDirectory, at?, hl] at hp
            have hp' : isDirectory entries rest = false := by
              simpa [isDirectory, at?, hl] using hp
            have hq' : isDirectory entries more = true := by
              simpa [isDirectory, at?, hl] using hq
            have hput := ih hp' hq'
            simpa [isDirectory, put, at?, lookup_set_self, hrest, hbelow] using hput
      · simpa [isDirectory, put, at?, lookup_set_of_ne ho] using hq

/-- The greatest number of bytes of one name. -/
def maxName : Nat := 255

/-- The greatest number of bytes of a path. -/
def maxPath : Nat := 4095

/-- Checks what can be told of a path without following it. -/
def checkPath (path : Text) : Except Fault Unit :=
  if path = [] then .error .missing
  else if '\x00' ∈ path then .error .nulInPath
  else if maxPath < path.byteSize then .error .nameTooLong
  else .ok ()

/-- Where a path begins. -/
def origin (working : Place) (path : Text) : Place :=
  if path.head? = some '/' then [] else working

/-- One step of a path from a place that has to be a directory.  The last name of a path need not
exist. -/
def enter (t : Tree) (p : Place) (piece : Text) : Except Fault Place :=
  match t.at? p with
  | none => .error .missing
  | some (.file _ _) => .error .notDirectory
  | some (.directory _) =>
    if piece = [] ∨ piece = ['.'] then .ok p
    else if piece = ['.', '.'] then .ok p.dropLast
    else if maxName < piece.byteSize then .error .nameTooLong
    else .ok (p ++ [piece])

/-- The place that a path leads to.  Whether anything is there is not said. -/
def resolve (t : Tree) (working : Place) (path : Text) : Except Fault Place := do
  checkPath path
  (Path.pieces path).foldlM t.enter (origin working path)

/-- The contents of the file at a path. -/
def contents (t : Tree) (working : Place) (path : Text) : Except Fault Bytes := do
  let p ← t.resolve working path
  match t.at? p with
  | none => .error .missing
  | some (.directory _) => .error .isDirectory
  | some (.file bytes _) => .ok bytes

/-- The text of the file at a path. -/
def text (t : Tree) (working : Place) (path : Text) : Except Fault Text := do
  let bytes ← t.contents working path
  match Utf8.decode? bytes with
  | some text => .ok text
  | none => .error .notText

/-- Follows the pieces of a path and makes the directories that are missing.  What was made before
a fault stays.  A file in the way is something that exists where a directory is to be made, if
`made` says that one has been made before it or if it is what the path leads to; otherwise it is
only not a directory. -/
def makeAlong : Tree → Place → Bool → List Text → Tree × Option Fault
  | t, _, _, [] => (t, none)
  | t, p, made, piece :: rest =>
    match t.enter p piece with
    | .error f => (t, some f)
    | .ok q =>
      match t.at? q with
      | some (.directory _) => makeAlong t q made rest
      | some (.file _ _) =>
        (t, some (if made || rest.all List.isEmpty then .exists else .notDirectory))
      | none => makeAlong (t.put q (.directory [])) q true rest

/-- Makes the directory at a path and those above it, as far as they are missing.  The empty path
asks for nothing. -/
def ensure (t : Tree) (working : Place) (path : Text) : Tree × Option Fault :=
  if path = [] then (t, none)
  else match checkPath path with
    | .error f => (t, some f)
    | .ok _ => t.makeAlong (origin working path) false (Path.pieces path)

/-- The fault of writing to a path that ends in a slash.  Such a path names a directory whatever
its last name is, so only the steps before that name are followed. -/
def slashFault (t : Tree) (working : Place) (path : Text) : Fault :=
  let above := (((Path.pieces path).reverse.dropWhile List.isEmpty).drop 1).reverse ++ [[]]
  match checkPath path, above.foldlM t.enter (origin working path) with
  | .error f, _ => f
  | .ok _, .error f => f
  | .ok _, .ok _ => .isDirectory

/-- Replaces the contents of the file at a path, or makes the file. -/
def write (t : Tree) (working : Place) (path : Text) (bytes : Bytes) : Except Fault Tree :=
  if path.getLast? = some '/' then .error (t.slashFault working path)
  else do
    let p ← t.resolve working path
    match t.at? p with
    | some (.directory _) => .error .isDirectory
    | some (.file _ executable) => .ok (t.put p (.file bytes executable))
    | none => .ok (t.put p (.file bytes false))

/-- Steps through directories are not changed by putting something where no directory was. -/
theorem enter_put {t : Tree} {p q r : Place} {n : Node} {piece : Text}
    (hp : t.isDirectory p = false) (h : t.enter q piece = .ok r) :
    (t.put p n).enter q piece = .ok r := by
  have hq : t.isDirectory q = true := by
    unfold enter at h
    split at h
    · simp at h
    · simp at h
    · rename_i hat
      simp [isDirectory, hat]
  have hq' := isDirectory_put (n := n) hp hq
  unfold isDirectory at hq hq'
  split at hq
  · rename_i hat
    split at hq'
    · rename_i hat'
      simpa [enter, hat, hat'] using h
    · simp at hq'
  · simp at hq

/-- A path that can be walked can still be walked once something has been put where no directory
was. -/
theorem foldlM_enter_put {t : Tree} {p r : Place} {n : Node} (hp : t.isDirectory p = false)
    (pieces : List Text) (q : Place) (h : pieces.foldlM t.enter q = .ok r) :
    pieces.foldlM (t.put p n).enter q = .ok r := by
  induction pieces generalizing q with
  | nil => exact h
  | cons piece pieces ih =>
    rw [List.foldlM_cons] at h ⊢
    cases hstep : t.enter q piece with
    | error f =>
      rw [hstep] at h
      exact absurd h (by simp [bind, Except.bind])
    | ok q' =>
      rw [hstep] at h
      rw [enter_put hp hstep]
      exact ih q' h

/-- A path leads to the same place after something was put where no directory was. -/
theorem resolve_put {t : Tree} {p r working : Place} {n : Node} {path : Text}
    (hp : t.isDirectory p = false) (h : t.resolve working path = .ok r) :
    (t.put p n).resolve working path = .ok r := by
  unfold resolve at h ⊢
  cases hc : checkPath path with
  | error f => simp [hc, bind, Except.bind] at h
  | ok _ =>
    rw [hc] at h
    exact foldlM_enter_put hp _ _ h

/-- What a successful write has stored is what is read afterwards. -/
theorem contents_of_write {t t' : Tree} {working : Place} {path : Text} {bytes : Bytes}
    (h : t.write working path bytes = .ok t') : t'.contents working path = .ok bytes := by
  unfold write at h
  split at h
  · simp at h
  simp only [bind, Except.bind] at h
  split at h
  · simp at h
  rename_i p hp
  have key : ∀ x, t.isDirectory p = false → t' = t.put p (.file bytes x) →
      t'.contents working path = .ok bytes := by
    intro x hdir ht
    subst ht
    have hroot : p ≠ [] := fun e => by simp [e, isDirectory, at?] at hdir
    simp [contents, resolve_put hdir hp, at?_put hroot, bind, Except.bind]
  split at h
  · simp at h
  · rename_i x hat
    exact key x (by simp [isDirectory, hat]) (by simpa using h.symm)
  · rename_i hat
    exact key false (by simp [isDirectory, hat]) (by simpa using h.symm)

/-- Checks that the program at a path can be started. -/
def executable (t : Tree) (working : Place) (path : Text) : Except Fault Unit := do
  let p ← t.resolve working path
  match t.at? p with
  | none => .error .missing
  | some (.file _ true) => .ok ()
  | some _ => .error .denied

end Tree

end ScriptWorkbench.Host
