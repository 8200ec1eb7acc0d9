import ScriptWorkbench.Host.Tree

/-!
# The machine that scripts run on

A machine has files, a working directory, a directory for temporary files, and directories that
are searched for programs.
-/

set_option autoImplicit false

namespace ScriptWorkbench

open Host

/-- What a run needs to know of the machine it runs on. -/
structure Machine where
  tree : Tree
  /-- Where relative paths begin. -/
  working : Place
  /-- The directory for temporary files. -/
  temporary : Text
  /-- The directories that are searched for programs. -/
  searchPath : List Place

namespace Machine

/-- The text of the file at a path. -/
def readText (m : Machine) (path : Text) : Except Fault Text :=
  m.tree.text m.working path

/-- Writes a script, making the directories above it. -/
def writeScript (m : Machine) (path script : Text) : Machine × Option Fault :=
  let (tree, refused) := match Path.parent? path with
    | some parent => m.tree.ensure m.working parent
    | none => (m.tree, none)
  match refused with
  | some f => ({ m with tree }, some f)
  | none =>
    match tree.write m.working path script.bytes with
    | .ok tree => ({ m with tree }, none)
    | .error f => ({ m with tree }, some f)

/-- Looks for a program in the directories of the search path.  Something that is found but cannot
be executed counts only if no directory has the program. -/
def search (m : Machine) (program : Text) : Except Fault Unit :=
  let found := m.searchPath.filterMap fun d =>
    (m.tree.enter d program).toOption.bind m.tree.at?
  if found.any fun n => n matches .file _ true then .ok ()
  else if found.isEmpty then .error .missing
  else .error .denied

/-- The greatest number of bytes of one argument. -/
def maxArgument : Nat := 131071

/-- Checks that a program can be started with some arguments. -/
def start (m : Machine) (program : Text) (arguments : List Text) : Except Fault Unit := do
  if '\x00' ∈ program ∨ arguments.any (fun a => '\x00' ∈ a) then .error .nulInArgument
  else if program = [] then .error .missing
  else if '/' ∈ program then m.tree.executable m.working program
  else if Tree.maxName < program.byteSize then .error .nameTooLong
  else m.search program
  if arguments.any fun a => maxArgument < a.byteSize then .error .argumentTooLong

end Machine

end ScriptWorkbench
