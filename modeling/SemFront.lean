import SemFront.Command.Flags
import SemFront.Command.Request
import SemFront.Command.Run
import SemFront.Data.StableSort
import SemFront.Data.Word
import SemFront.Diagnostic.Basic
import SemFront.Diagnostic.Json
import SemFront.Diagnostic.Show
import SemFront.Diagnostic.Sources
import SemFront.Diagnostic.Underline
import SemFront.Files.Change
import SemFront.Files.Disk
import SemFront.Files.Expand
import SemFront.Files.Path
import SemFront.Files.Pattern
import SemFront.Files.Tree
import SemFront.Grammar.Decl
import SemFront.Grammar.Error
import SemFront.Grammar.Expr
import SemFront.Grammar.Log
import SemFront.Grammar.Name
import SemFront.Grammar.Param
import SemFront.Grammar.Problem
import SemFront.Grammar.Reader
import SemFront.Grammar.Reading
import SemFront.Grammar.Recovery
import SemFront.Grammar.Rule
import SemFront.Grammar.Stmt
import SemFront.Json.Basic
import SemFront.Lexical.Error
import SemFront.Log.Event
import SemFront.Main
import SemFront.Parsed.Basic
import SemFront.Parsed.Show
import SemFront.Parsed.Watch
import SemFront.Proofs.Grammar.Decl
import SemFront.Proofs.Grammar.Edit
import SemFront.Proofs.Grammar.Ensures
import SemFront.Proofs.Grammar.Expr
import SemFront.Proofs.Grammar.ExprComplete
import SemFront.Proofs.Grammar.InTurn
import SemFront.Proofs.Grammar.Name
import SemFront.Proofs.Grammar.Param
import SemFront.Proofs.Grammar.Program
import SemFront.Proofs.Grammar.ProgramComplete
import SemFront.Proofs.Grammar.Progress
import SemFront.Proofs.Grammar.Reading
import SemFront.Proofs.Grammar.Reads
import SemFront.Proofs.Grammar.Spells
import SemFront.Proofs.Grammar.Stmt
import SemFront.Proofs.Grammar.StmtComplete
import SemFront.Proofs.RoundTrip
import SemFront.Proofs.Token.Lexeme
import SemFront.Proofs.Token.Munch
import SemFront.Proofs.Token.Scan
import SemFront.Proofs.Tree.Canonical
import SemFront.Proofs.Tree.Erase
import SemFront.Proofs.Tree.Lexemes
import SemFront.Proofs.Tree.Order
import SemFront.Proofs.Tree.Outline
import SemFront.Settings.Basic
import SemFront.Settings.Level
import SemFront.Settings.Load
import SemFront.Settings.Setting
import SemFront.Settings.Yaml
import SemFront.Source.Position
import SemFront.Source.Span
import SemFront.Text.Blank
import SemFront.Text.Bytes
import SemFront.Text.Canonical
import SemFront.Text.Canonical.Table
import SemFront.Text.Decimal
import SemFront.Text.Integer
import SemFront.Text.Letter
import SemFront.Text.Lines
import SemFront.Text.Printable
import SemFront.Text.Quoted
import SemFront.Text.Ranges
import SemFront.Text.Timestamp
import SemFront.Token.Basic
import SemFront.Token.Kind
import SemFront.Token.Munch
import SemFront.Token.Scanner
import SemFront.Tree.Expr
import SemFront.Tree.Name
import SemFront.Tree.Node
import SemFront.Tree.Print
import SemFront.Tree.Program
import SemFront.Tree.Stmt
import SemFront.Yaml.Basic
import SemFront.Yaml.Cursor
import SemFront.Yaml.Literal
import SemFront.Yaml.Read
import SemFront.Yaml.Resolve
import SemFront.Yaml.Scalar
import SemFront.Yaml.Token
import SemFront.Yaml.Write
import SemFront.Proofs.Grammar.Bounds
import SemFront.Proofs.Grammar.Braces
import SemFront.Proofs.Layout.InStep
import SemFront.Proofs.Token.Place
import SemFront.Proofs.Tree.Placeholders
import SemFront.Proofs.Layout.Independence
import SemFront.Proofs.Placement.Outline
import SemFront.Proofs.Placement.Rule
import SemFront.Proofs.Placement.Expr
import SemFront.Proofs.Placement.Stmt
import SemFront.Proofs.Placement.Program
import SemFront.Proofs.Placement.LastToken
import SemFront.Proofs.Token.Longest
import SemFront.Proofs.Token.Partition
import SemFront.Proofs.Grammar.Diagnostics
import SemFront.Proofs.Grammar.Limit
import SemFront.Proofs.Diagnostic.Caret
import SemFront.Proofs.Parsed.Schedule
import SemFront.Proofs.Grammar.Unlogged
import SemFront.Proofs.Grammar.ClassBody
import SemFront.Proofs.Names.Rule
import SemFront.Proofs.Names.Expr
import SemFront.Proofs.Names.Stmt
import SemFront.Proofs.Names.Program
import SemFront.Proofs.IriRoundTrip
import SemFront.Proofs.Grammar.Fences
import SemFront.Proofs.Grammar.ParamList
import SemFront.Proofs.Tree.Written
import SemFront.Proofs.Written.Expr
import SemFront.Proofs.Written.Losses
import SemFront.Proofs.Written.Program
import SemFront.Proofs.Written.Nodes
import SemFront.Proofs.Marks.Angles
import SemFront.Proofs.Marks.Expr
import SemFront.Proofs.Marks.Program
import SemFront.Proofs.Diagnostic.Row
import SemFront.Proofs.Repeats.Frontier
import SemFront.Proofs.Repeats.Expr
import SemFront.Proofs.Repeats.Stmt
import SemFront.Proofs.Repeats.Param
import SemFront.Proofs.Repeats.Program
import SemFront.Proofs.Repeats.Quota
import SemFront.Proofs.Files.Path
import SemFront.Proofs.Files.Plain
import SemFront.Proofs.Files.Expand
import SemFront.Grammar.Window
import SemFront.Proofs.Token.Spaced
import SemFront.Proofs.Settings.Saved
import SemFront.Proofs.Grammar.Window
import SemFront.Proofs.Grammar.Skipped
