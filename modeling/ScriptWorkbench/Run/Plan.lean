import ScriptWorkbench.Host.Path

/-!
# How scripts are run

A plan names the interpreter, the flag it gets before the path of the script, where the script is
written before each run, and how often the end of a run is looked for.
-/

set_option autoImplicit false

namespace ScriptWorkbench

/-- How scripts are run. -/
structure Plan where
  /-- The program, looked up in the search path unless its name has a slash. -/
  interpreter : Text
  /-- An argument before the path of the script. -/
  flag : Option Text
  /-- Where the script is written before each run. -/
  scriptPath : Text
  /-- Milliseconds between two looks at a run that is about to end. -/
  pollInterval : Nat
deriving DecidableEq, Repr

namespace Plan

/-- The plan that is used when none is given. -/
def standard (temporary : Text) : Plan where
  interpreter := "kotlinc".toList
  flag := some "-script".toList
  scriptPath := Path.join (Path.join temporary "scriptpad".toList) "script.kts".toList
  pollInterval := 10

/-- The arguments of the interpreter. -/
def arguments (p : Plan) : List Text :=
  p.flag.toList ++ [p.scriptPath]

/-- Two plans that mean the same: paths count by their parts. -/
def same (p q : Plan) : Bool :=
  p.interpreter = q.interpreter && p.flag = q.flag && Path.same p.scriptPath q.scriptPath &&
    p.pollInterval = q.pollInterval

end Plan

end ScriptWorkbench
