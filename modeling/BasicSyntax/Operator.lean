import BasicSyntax.Position

/-! # Operators — what joins two operands

    Each operator has a priority, the higher binding the tighter, and a side to which it groups
    among operators of its own priority.  `dummy` stands before the first operand of a run,
    where no operator is written; it binds looser than every other. -/

namespace BasicSyntax

/-- The operators of the language, and the one that no text contains. -/
inductive Symbol
  | dummy
  | assign
  | equal
  | notEqual
  | greater
  | less
  | plus
  | minus
  | times
  | divide
  | modulo
  deriving DecidableEq, Repr

namespace Symbol

/-- Every operator. -/
def all : List Symbol :=
  [dummy, assign, equal, notEqual, greater, less, plus, minus, times, divide, modulo]

/-- How an operator is written. -/
def text : Symbol → String
  | dummy => "dummy"
  | assign => "<-"
  | equal => "=="
  | notEqual => "!="
  | greater => ">"
  | less => "<"
  | plus => "+"
  | minus => "-"
  | times => "*"
  | divide => "/"
  | modulo => "%"

/-- The operator that is written so. -/
def ofText? (text : String) : Option Symbol :=
  all.find? fun symbol => symbol.text == text

/-- How tightly an operator binds. -/
def priority : Symbol → Int
  | dummy => -21474837
  | assign => 8
  | equal | notEqual | greater | less => 9
  | plus | minus => 10
  | times | divide | modulo => 11

/-- Whether an operator groups to the left among those of its priority. -/
def leftAssoc : Symbol → Bool
  | assign => false
  | _ => true

end Symbol

/-- An operator where it stands. -/
structure Operator where
  symbol : Symbol
  pos : Option Position
  deriving DecidableEq, Repr

/-- The complaint about an operator that the language does not have. -/
def unknownOperatorMessage (text : String) : String :=
  s!"Unknown operator '{text}'"

end BasicSyntax
