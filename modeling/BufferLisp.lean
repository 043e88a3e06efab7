import BufferLisp.Console
import BufferLisp.Editor.Action
import BufferLisp.Editor.Basic
import BufferLisp.Editor.Command
import BufferLisp.Editor.CommandLine
import BufferLisp.Editor.Start
import BufferLisp.Error
import BufferLisp.Eval.Basic
import BufferLisp.Eval.Form
import BufferLisp.Eval.InTree
import BufferLisp.Eval.Primitive
import BufferLisp.Eval.Step
import BufferLisp.Host.Recorder
import BufferLisp.Host.Request
import BufferLisp.Main
import BufferLisp.Number.Binary
import BufferLisp.Number.Format
import BufferLisp.Number.Nearest
import BufferLisp.Number.Numeral
import BufferLisp.Number.Shortest
import BufferLisp.Scope.Chain
import BufferLisp.Scope.Frame
import BufferLisp.Scope.Tree
import BufferLisp.Session
import BufferLisp.Settings.Basic
import BufferLisp.Settings.LogLevel
import BufferLisp.Settings.Path
import BufferLisp.Source.LastExpression
import BufferLisp.Source.Literal
import BufferLisp.Source.Reading
import BufferLisp.Source.Token
import BufferLisp.Text.Blank
import BufferLisp.Text.CharRange
import BufferLisp.Text.Digit
import BufferLisp.Text.Line
import BufferLisp.Text.Printable
import BufferLisp.Text.Quoted
import BufferLisp.Text.Slice
import BufferLisp.Text.Split
import BufferLisp.Value.Basic
import BufferLisp.Value.Place
import BufferLisp.Value.Printer
import BufferLisp.Workspace.Basic
import BufferLisp.Workspace.Buffer
import BufferLisp.Proofs.Console.Ending
import BufferLisp.Proofs.Editor.Faults
import BufferLisp.Proofs.Editor.History
import BufferLisp.Proofs.Editor.LastExpression
import BufferLisp.Proofs.Editor.LineMotion
import BufferLisp.Proofs.Editor.WellFormed
import BufferLisp.Proofs.Eval.Bounds
import BufferLisp.Proofs.Eval.Call
import BufferLisp.Proofs.Eval.Confinement
import BufferLisp.Proofs.Eval.Congruence
import BufferLisp.Proofs.Eval.Depth
import BufferLisp.Proofs.Eval.Effect
import BufferLisp.Proofs.Eval.Functionless
import BufferLisp.Proofs.Eval.Lookup
import BufferLisp.Proofs.Eval.Requests
import BufferLisp.Proofs.Eval.Setq
import BufferLisp.Proofs.Eval.Simulation
import BufferLisp.Proofs.Eval.Validation
import BufferLisp.Proofs.Number.Bits
import BufferLisp.Proofs.Number.Nearest
import BufferLisp.Proofs.Number.Numeral
import BufferLisp.Proofs.Number.ReadBack
import BufferLisp.Proofs.Number.Rounding
import BufferLisp.Proofs.Number.Scientific
import BufferLisp.Proofs.Number.Shortest
import BufferLisp.Proofs.Scope.History
import BufferLisp.Proofs.Session.Answer
import BufferLisp.Proofs.Source.Balanced
import BufferLisp.Proofs.Source.Descent
import BufferLisp.Proofs.Source.Escapes
import BufferLisp.Proofs.Source.Grammar
import BufferLisp.Proofs.Source.LastExpression
import BufferLisp.Proofs.Source.Literal
import BufferLisp.Proofs.Source.Locality
import BufferLisp.Proofs.Source.Nesting
import BufferLisp.Proofs.Source.Progress
import BufferLisp.Proofs.Source.Reach
import BufferLisp.Proofs.Source.Shape
import BufferLisp.Proofs.Value.Equality
import BufferLisp.Proofs.Value.Occurrence
import BufferLisp.Proofs.Value.Reprint
import BufferLisp.Proofs.Value.RoundTrip
import BufferLisp.Proofs.Workspace.Active
import BufferLisp.Proofs.Workspace.Edit
import BufferLisp.Proofs.Workspace.Insertion
import BufferLisp.Proofs.Workspace.Page
import BufferLisp.Proofs.Workspace.WellFormed
