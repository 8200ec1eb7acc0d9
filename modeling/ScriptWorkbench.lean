import ScriptWorkbench.CommandLine.Execute
import ScriptWorkbench.Editor
import ScriptWorkbench.Main
import ScriptWorkbench.Run.Runner
import ScriptWorkbench.Settings.Document
import ScriptWorkbench.Proofs.Lexeme.Reading
import ScriptWorkbench.Proofs.Report.Display
import ScriptWorkbench.Proofs.Report.Offsets
import ScriptWorkbench.Proofs.Session.Settling
import ScriptWorkbench.Proofs.Session.Killing
import ScriptWorkbench.Proofs.Session.Subscribers
import ScriptWorkbench.Proofs.Text.Chunks
import ScriptWorkbench.Proofs.Text.Places
import ScriptWorkbench.Proofs.Session.Notices
import ScriptWorkbench.Proofs.Session.Progress
import ScriptWorkbench.Proofs.CommandLine.Printed
import ScriptWorkbench.Proofs.Editor
import ScriptWorkbench.Proofs.Report.Recovery
import ScriptWorkbench.Proofs.Text.Nearest
import ScriptWorkbench.Proofs.Settings.Overrides
import ScriptWorkbench.Proofs.Editing
import ScriptWorkbench.Proofs.Lexeme.Splitting
import ScriptWorkbench.Proofs.Text.Lossy
import ScriptWorkbench.Proofs.Run.Killed
import ScriptWorkbench.Proofs.Session.Cancelling
import ScriptWorkbench.Proofs.Paint.Rendering
import ScriptWorkbench.Proofs.Text.Exact
import ScriptWorkbench.Proofs.Run.Harmless
import ScriptWorkbench.Proofs.Session.Waiting
import ScriptWorkbench.Proofs.CommandLine.TokenList
import ScriptWorkbench.Proofs.Lexeme.Keywords
import ScriptWorkbench.Proofs.Session.LastExit
import ScriptWorkbench.Proofs.Session.ScriptFile
