import BasicSyntax.Editor
import BasicSyntax.Main
import BasicSyntax.Record.Agreement
import BasicSyntax.Record.Source
import BasicSyntax.Proofs.Grammar
import BasicSyntax.Proofs.Parse.Ahead
import BasicSyntax.Proofs.Parse.Remainder
import BasicSyntax.Proofs.Parse.Derivative
import BasicSyntax.Proofs.Grammar.Unique
import BasicSyntax.Proofs.Token.Lexeme
import BasicSyntax.Proofs.Token.Scan
import BasicSyntax.Proofs.Token.Split
import BasicSyntax.Proofs.Token.Longest
import BasicSyntax.Proofs.Reading
import BasicSyntax.Proofs.Parse.Likeness
import BasicSyntax.Proofs.Parse.Completion
import BasicSyntax.Proofs.CorrectPrefix
import BasicSyntax.Proofs.Fold
import BasicSyntax.Proofs.Fold.Loosest
import BasicSyntax.Proofs.Text.Literal
import BasicSyntax.Proofs.Grammar.Shape
import BasicSyntax.Proofs.Agreement
import BasicSyntax.Proofs.Source.Derived
import BasicSyntax.Proofs.Source.Written
import BasicSyntax.Proofs.RoundTrip
import BasicSyntax.Proofs.Node.Marks
import BasicSyntax.Proofs.Grammar.Marks
import BasicSyntax.Proofs.ErrorPoint
import BasicSyntax.Proofs.Node.Relocate
import BasicSyntax.Proofs.Token.Behind
import BasicSyntax.Proofs.Composition
import BasicSyntax.Proofs.Node.Unplaced
import BasicSyntax.Proofs.Source.Literal
import BasicSyntax.Proofs.Source.Operand
import BasicSyntax.Proofs.Source.Frame
import BasicSyntax.Proofs.Source.Setting
import BasicSyntax.Proofs.Source.Brackets
import BasicSyntax.Proofs.Text.Utf8
import BasicSyntax.Proofs.CommandLine.Script
import BasicSyntax.Proofs.Source.Drawn
import BasicSyntax.Proofs.Source.Level
import BasicSyntax.Proofs.Format
import BasicSyntax.Proofs.Session
import BasicSyntax.Proofs.Arithmetic
import BasicSyntax.Proofs.LineEndings
import BasicSyntax.Proofs.Source.Sourceless
import BasicSyntax.Proofs.Token.Layout
import BasicSyntax.Proofs.Layout
import BasicSyntax.Proofs.Record.Headline
import BasicSyntax.Proofs.Outline
import BasicSyntax.Proofs.Fold.Stacks
import BasicSyntax.Proofs.Parse.Outcome
import BasicSyntax.Proofs.Description
import BasicSyntax.Proofs.Parse.Allowed
import BasicSyntax.Proofs.Follow
import BasicSyntax.Proofs.Expected
