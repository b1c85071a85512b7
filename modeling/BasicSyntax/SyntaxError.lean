import BasicSyntax.Text.Lines
import BasicSyntax.Text.Quoted
import BasicSyntax.Text.TabStops
import BasicSyntax.Token

/-! # Syntax errors — what was met, where, and what was expected there

    A report is the wording of an error: a message, a point, the descriptions of what was
    expected, and an excerpt of the line with a mark under the point. -/

namespace BasicSyntax

/-- An error in words. -/
structure Report where
  message : String
  line : Int
  column : Int
  expected : List String
  context : Option String
  deriving DecidableEq, Repr

namespace Report

/-- A report with what was expected in the order of code points. -/
def make (message : String) (line column : Int) (expected : List String)
    (context : Option String) : Report :=
  ⟨message, line, column, expected.mergeSort fun a b => a ≤ b, context⟩

/-- A report on one line. -/
def text (report : Report) : String :=
  s!"{report.message} at line {report.line}, column {report.column}" ++
    match report.expected with
    | [] => ""
    | expected => "; expected one of: " ++ ", ".intercalate expected

end Report

/-- What was met instead of what was expected. -/
inductive Cause
  | character (char : Char)
  | token (text : String)
  | endOfInput
  deriving DecidableEq, Repr

/-- What was met, in words. -/
def Cause.message : Cause → String
  | character char => "Unexpected character " ++ Text.quoted (String.singleton char)
  | token text => "Unexpected token " ++ Text.quoted text
  | endOfInput => "Unexpected end of input"

/-- How many characters before and behind a point an excerpt may show. -/
def excerptReach : Nat := 40

/-- An excerpt of one line, and below it a mark under the point between the two parts. -/
def excerpt (before behind : List Char) : String :=
  let shown := Text.lastLine before
  String.ofList (shown ++ Text.firstLine behind ++
    '\n' :: (List.replicate (Text.width shown) ' ' ++ ['^', '\n']))

/-- The excerpt around an offset of a text. -/
def excerptAt (text : List Char) (offset : Nat) : String :=
  excerpt ((text.take offset).drop (offset - excerptReach))
    ((text.drop offset).take excerptReach)

/-- The excerpt around the last character of a text.  It shows the line up to that character,
    however long, and the character itself only in a text short enough to be shown whole. -/
def excerptAtEnd (text : List Char) : String :=
  excerpt text.dropLast ((text.drop (text.length - 1)).take (excerptReach - text.length))

/-- An error at a point of a text. -/
structure SyntaxError where
  cause : Cause
  pos : Position
  expected : List Terminal
  context : String
  deriving DecidableEq, Repr

namespace SyntaxError

/-- An error in words. -/
def report (e : SyntaxError) : Report :=
  .make e.cause.message e.pos.line e.pos.column (Terminal.describe e.expected) (some e.context)

/-- An error on one line. -/
def text (e : SyntaxError) : String :=
  e.report.text

end SyntaxError

/-- The report of a text that ends where, by their names, other terminals were expected. -/
def Report.ofEnd (names : List String) (text : String) : Report :=
  let pos := Position.endOf text
  .make Cause.endOfInput.message pos.line pos.column (Terminal.describeNames names)
    (some (excerptAtEnd text.toList))

end BasicSyntax
