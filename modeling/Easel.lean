import Easel.Canvas.Basic
import Easel.Canvas.Circle
import Easel.Canvas.Fill
import Easel.Canvas.Grid
import Easel.Canvas.Line
import Easel.Canvas.Query
import Easel.Canvas.Rectangle
import Easel.Color
import Easel.CommandLine
import Easel.CommandLine.Arguments
import Easel.CommandLine.Command
import Easel.CommandLine.Directory
import Easel.CommandLine.Listing
import Easel.CommandLine.Run
import Easel.CommandLine.Script
import Easel.Error
import Easel.Expr.Basic
import Easel.Expr.Eval
import Easel.Expr.Parser
import Easel.Fault
import Easel.Main
import Easel.Picture.Ppm
import Easel.Picture.Terminal
import Easel.Program.Basic
import Easel.Program.Interpreter
import Easel.Program.Log
import Easel.Program.Outline
import Easel.Program.Parser
import Easel.Program.Run
import Easel.Proofs.Canvas.Border
import Easel.Proofs.Canvas.BorderEnclosure
import Easel.Proofs.Canvas.Cells
import Easel.Proofs.Canvas.Changes
import Easel.Proofs.Canvas.CircleAccuracy
import Easel.Proofs.Canvas.CircleEnclosure
import Easel.Proofs.Canvas.CircleWalk
import Easel.Proofs.Canvas.Counting
import Easel.Proofs.Canvas.Flood
import Easel.Proofs.Canvas.Line
import Easel.Proofs.Canvas.MachineDrawing
import Easel.Proofs.Canvas.MachineExact
import Easel.Proofs.Canvas.MachineStamps
import Easel.Proofs.Canvas.Storage
import Easel.Proofs.Canvas.Symmetry
import Easel.Proofs.Canvas.Words
import Easel.Proofs.Grammar.Blame
import Easel.Proofs.Grammar.Expr
import Easel.Proofs.Grammar.Printer
import Easel.Proofs.Grammar.Program
import Easel.Proofs.Grammar.Reads
import Easel.Proofs.Lexer.Layout
import Easel.Proofs.Lexer.Lexeme
import Easel.Proofs.Lexer.Lines
import Easel.Proofs.Lexer.Spacing
import Easel.Proofs.Program.Cursor
import Easel.Proofs.Program.Effects
import Easel.Proofs.Program.Exec
import Easel.Proofs.Program.Failures
import Easel.Proofs.Program.Faults
import Easel.Proofs.Program.Histories
import Easel.Proofs.Program.Meaning
import Easel.Proofs.Program.Overflow
import Easel.Proofs.Program.Paint
import Easel.Proofs.Program.Renaming
import Easel.Proofs.Program.Runs
import Easel.Source
import Easel.Text.Blank
import Easel.Text.Graphic
import Easel.Text.Number
import Easel.Text.Outline
import Easel.Text.Quoted
import Easel.Text.Trim
import Easel.Token.Basic
import Easel.Token.Lexer
import Easel.Token.Reader
import Easel.Proofs.Grammar.Viability
import Easel.Proofs.Program.Jumps
import Easel.Proofs.Picture.Ppm
import Easel.Proofs.Picture.Terminal
import Easel.Proofs.Canvas.Stamps
import Easel.Proofs.Grammar.Scan
import Easel.Proofs.Grammar.Progress
