import ScriptWorkbench.Host.Machine
import ScriptWorkbench.Settings

/-!
# Settings from a file

Settings are loaded from a file that is named on the command line.  Without a file they are the
standard ones.
-/

set_option autoImplicit false

namespace ScriptWorkbench

open Host

/-- Why settings could not be loaded. -/
inductive SettingsError
  /-- The file could not be read. -/
  | unreadable (path : Text) (fault : Fault)
  /-- The file does not hold settings. -/
  | invalid (path : Text) (problem : Json.Problem)
deriving DecidableEq, Repr

/-- A problem of a document in words. -/
def Json.Problem.message : Json.Problem → Text
  | .fault .ended => "unexpected end of the document".toList
  | .fault .malformed => "the document is not JSON".toList
  | .mismatch m => m.message

namespace SettingsError

/-- Where settings could not be loaded from and, unless the document is to blame, why. -/
def summary : SettingsError → Text
  | .unreadable path fault => "cannot read ".toList ++ path ++ ": ".toList ++ fault.message
  | .invalid path _ => "invalid configuration in ".toList ++ path

/-- The whole message. -/
def message : SettingsError → Text
  | .unreadable path fault => summary (.unreadable path fault)
  | .invalid path problem => summary (.invalid path problem) ++ ": ".toList ++ problem.message

end SettingsError

/-- Loads settings.  `read` answers with the text of a file. -/
def Settings.load (read : Text → Except Fault Text) (temporary : Text) :
    Option Text → Except SettingsError Settings
  | none => .ok (Settings.standard temporary)
  | some path =>
    match read path with
    | .error fault => .error (.unreadable path fault)
    | .ok document =>
      match Settings.ofJson temporary document with
      | .error problem => .error (.invalid path problem)
      | .ok settings => .ok settings

end ScriptWorkbench
