import DocShell.Text.Basic
import DocShell.Text.Word
import DocShell.Text.Hidden
import DocShell.Number.Shortest
import DocShell.Value.Basic
import DocShell.Literal.Parser
import DocShell.Literal.Printer
import DocShell.Literal.Cursor
import DocShell.Json
import DocShell.Arguments
import DocShell.Method
import DocShell.Command.Basic
import DocShell.Safety
import DocShell.Report
import DocShell.Toml.Document
import DocShell.Program.Run
import DocShell.Main
import DocShell.Proofs.Reading
import DocShell.Proofs.Literal.Strings
import DocShell.Proofs.Literal.Numerals
import DocShell.Proofs.Literal.Grammar
import DocShell.Proofs.Literal.Language
import DocShell.Proofs.Literal.NumberText
import DocShell.Proofs.Literal.Printed
import DocShell.Proofs.Literal.RoundTrip
import DocShell.Proofs.Arguments.Language
import DocShell.Proofs.Arguments.Literals
import DocShell.Proofs.Command.Shape
import DocShell.Proofs.Command.Language
import DocShell.Proofs.Command.Decomposition
import DocShell.Proofs.Command.RoundTrip
import DocShell.Proofs.Literal.Faults
import DocShell.Proofs.Arguments.Faults
import DocShell.Proofs.Command.Stages
import DocShell.Proofs.Command.Places
import DocShell.Proofs.Literal.Json
import DocShell.Proofs.Report
import DocShell.Proofs.Literal.ControlFree
import DocShell.Proofs.WellFormed
import DocShell.Proofs.Report.Lines
import DocShell.Proofs.Safety
import DocShell.Proofs.Program.Stages
import DocShell.Proofs.Literal.Numbers
import DocShell.Proofs.Literal.Spellings
import DocShell.Proofs.Literal.Brackets
import DocShell.Proofs.Literal.RepeatedKeys
import DocShell.Proofs.Command.Padding
import DocShell.Proofs.Arguments.Beginnings
import DocShell.Proofs.Program.Input
import DocShell.Proofs.Cursor.Progress
