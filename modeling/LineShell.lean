import LineShell.CommandLine
import LineShell.CommandLine.Parse
import LineShell.Environment
import LineShell.Fault
import LineShell.FileSystem
import LineShell.FileSystem.Canonical
import LineShell.FileSystem.Edit
import LineShell.FileSystem.Replace
import LineShell.History
import LineShell.Host.Answer
import LineShell.Host.Machine
import LineShell.Host.Pipe
import LineShell.Host.Program
import LineShell.Host.Scripted
import LineShell.Host.Step
import LineShell.Jobs
import LineShell.Kernel
import LineShell.LineError
import LineShell.Log
import LineShell.Main
import LineShell.Options
import LineShell.Outcome
import LineShell.Path
import LineShell.Platform
import LineShell.Prompt
import LineShell.Proofs.Assembly
import LineShell.Proofs.Attempts
import LineShell.Proofs.Attendance
import LineShell.Proofs.CanonicalPaths
import LineShell.Proofs.Composition
import LineShell.Proofs.Conservation
import LineShell.Proofs.Containment
import LineShell.Proofs.Copying
import LineShell.Proofs.Custody
import LineShell.Proofs.Delivery
import LineShell.Proofs.Descent
import LineShell.Proofs.Detach
import LineShell.Proofs.Diagnostics
import LineShell.Proofs.DirectoryChange
import LineShell.Proofs.Drain
import LineShell.Proofs.Ensures
import LineShell.Proofs.ErrorOperator
import LineShell.Proofs.Escalation
import LineShell.Proofs.FileAccess
import LineShell.Proofs.FileHolders
import LineShell.Proofs.FileLifetimes
import LineShell.Proofs.FileUse
import LineShell.Proofs.Flow
import LineShell.Proofs.Footing
import LineShell.Proofs.Foreground
import LineShell.Proofs.Grammar
import LineShell.Proofs.HandleBuffer
import LineShell.Proofs.HeldFile
import LineShell.Proofs.HeldRuns
import LineShell.Proofs.Joining
import LineShell.Proofs.Kept
import LineShell.Proofs.LastOutput
import LineShell.Proofs.Launch
import LineShell.Proofs.Layout
import LineShell.Proofs.LentOutput
import LineShell.Proofs.LineDecoding
import LineShell.Proofs.LineOutput
import LineShell.Proofs.LinkCache
import LineShell.Proofs.LinkFree
import LineShell.Proofs.Linking
import LineShell.Proofs.Locality
import LineShell.Proofs.LosslessDrain
import LineShell.Proofs.Modes
import LineShell.Proofs.Network
import LineShell.Proofs.NulFree
import LineShell.Proofs.Offsets
import LineShell.Proofs.Operators
import LineShell.Proofs.Orderly
import LineShell.Proofs.Orphans
import LineShell.Proofs.Outlets
import LineShell.Proofs.OutputFaults
import LineShell.Proofs.OutputFold
import LineShell.Proofs.OutputPipe
import LineShell.Proofs.OutputRecord
import LineShell.Proofs.OutputTarget
import LineShell.Proofs.Passage
import LineShell.Proofs.PathComposition
import LineShell.Proofs.PathResolution
import LineShell.Proofs.PipeFlow
import LineShell.Proofs.PipelineResult
import LineShell.Proofs.Pipelines
import LineShell.Proofs.PlanFiles
import LineShell.Proofs.Plays
import LineShell.Proofs.PromptLoop
import LineShell.Proofs.PromptTurns
import LineShell.Proofs.Reaping
import LineShell.Proofs.Recovery
import LineShell.Proofs.Redirections
import LineShell.Proofs.Refusal
import LineShell.Proofs.RelayCopy
import LineShell.Proofs.Rerouting
import LineShell.Proofs.SavedFiles
import LineShell.Proofs.Seats
import LineShell.Proofs.Serving
import LineShell.Proofs.SessionFrame
import LineShell.Proofs.SingleRun
import LineShell.Proofs.Spelling
import LineShell.Proofs.StageFiles
import LineShell.Proofs.StageWiring
import LineShell.Proofs.StreamProgram
import LineShell.Proofs.Targets
import LineShell.Proofs.Trace
import LineShell.Proofs.Trimming
import LineShell.Proofs.TypedLines
import LineShell.Proofs.UsableSettings
import LineShell.Proofs.Waited
import LineShell.Proofs.WorkingDirectory
import LineShell.Session
import LineShell.Settings
import LineShell.Shell
import LineShell.Shell.ChangeDirectory
import LineShell.Shell.Drain
import LineShell.Shell.Execute
import LineShell.Shell.Pipeline
import LineShell.Shell.Reaping
import LineShell.Shell.Serve
import LineShell.Shell.Single
import LineShell.Shell.StageFiles
import LineShell.Shell.TypedLines
import LineShell.Startup
import LineShell.Text.Blank
import LineShell.Text.Digit
import LineShell.Text.Printable
import LineShell.Text.Quoted
import LineShell.Text.Uppercase
import LineShell.Text.Utf8
import LineShell.Text.Width
import LineShell.Token.Lexeme
import LineShell.Token.Lexer
import LineShell.Token.Scan
import LineShell.Userland.Arguments
import LineShell.Userland.Capture
import LineShell.Userland.Cat
import LineShell.Userland.Catalog
import LineShell.Userland.Copy
import LineShell.Userland.Count
import LineShell.Userland.Cut
import LineShell.Userland.Echo
import LineShell.Userland.Editor.Edit
import LineShell.Userland.Editor.Grammar
import LineShell.Userland.Editor.Parse
import LineShell.Userland.Editor.Run
import LineShell.Userland.Escape
import LineShell.Userland.Extended
import LineShell.Userland.Figures
import LineShell.Userland.FileName
import LineShell.Userland.Format
import LineShell.Userland.Glob
import LineShell.Userland.Grep
import LineShell.Userland.Layout
import LineShell.Userland.Lines
import LineShell.Userland.Listing
import LineShell.Userland.Order
import LineShell.Userland.Output
import LineShell.Userland.Pattern
import LineShell.Userland.Pattern.Bracket
import LineShell.Userland.Pattern.Parse
import LineShell.Userland.Program
import LineShell.Userland.Repeat
import LineShell.Userland.Script.Arithmetic
import LineShell.Userland.Script.Builtin
import LineShell.Userland.Script.Expand
import LineShell.Userland.Script.Grammar
import LineShell.Userland.Script.Parse
import LineShell.Userland.Script.Redirect
import LineShell.Userland.Script.Run
import LineShell.Userland.Script.State
import LineShell.Userland.Script.Test
import LineShell.Userland.Script.Word
import LineShell.Userland.Sed
import LineShell.Userland.Sequence
import LineShell.Userland.Sort
import LineShell.Userland.Transliterate
import LineShell.Wiring
