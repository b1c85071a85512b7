import BasicSyntax.Terminal
import BasicSyntax.Node

/-! # Expected terminals — what may come next at each stage of reading

    Reading closes whatever the next terminal cannot belong to, and at each stage on the way
    out asks whether the terminal is among those that stage knows.  Where it is not, these are
    the ones that were expected.  A stage is shared by all contexts in which it occurs, so some
    of its terminals may fit in another context only. -/

namespace BasicSyntax

/-- The terminal that closes brackets. -/
def Enclosure.closer : Enclosure → Terminal
  | block => .closeBrace
  | scope => .closeSquare

namespace Parse

/-- Terminals that may come next. -/
abbrev Expected := List Terminal

namespace Expected

/-- Behind a minus, and behind `if` and `while`. -/
def primary : Expected := [.identifier, .openParen, .number, .string]

/-- Behind an operator. -/
def operand : Expected := .minus :: primary

/-- Behind an opening round bracket. -/
def expr : Expected := .funWord :: operand

/-- Behind `=`, `->` and `else`, and behind a condition. -/
def cluster : Expected := .openBrace :: .openSquare :: expr

/-- What a statement may begin with, and the separator that follows an empty one. -/
def stmt : Expected := .ifWord :: .whileWord :: .letWord :: .separator :: cluster

/-- At the start of a line of the program. -/
def line : Expected := .endOfInput :: stmt

/-- Behind an opening bracket. -/
def firstItem (form : Enclosure) : Expected := form.closer :: stmt

/-- Behind a separator between brackets. -/
def laterItem : Expected := .closeBrace :: .closeSquare :: stmt

/-- Behind a statement. -/
def afterStmt : Expected := [.closeBrace, .closeSquare, .separator]

/-- Behind the first branch of a choice. -/
def afterThen : Expected := .elseWord :: afterStmt

/-- Behind an expression. -/
def afterExpr : Expected := .closeParen :: afterThen

/-- Behind an operand. -/
def afterOperand : Expected := .operator :: .minus :: afterExpr

/-- What an argument may begin with, but for the underline. -/
def argument : Expected :=
  [.identifier, .openBrace, .openParen, .openSquare, .number, .string]

/-- Behind an operand that takes no arguments. -/
def afterPrimary : Expected := .funWord :: (argument ++ afterOperand)

/-- Behind an argument, and behind anything that could be one. -/
def afterArgument : Expected := .underline :: afterPrimary

/-- Behind a name. -/
def afterName : Expected := .equals :: .arrow :: afterArgument

/-- Behind `let`. -/
def bindingHead : Expected := [.identifier, .macroWord]

/-- Behind `fun`, and behind `let macro`. -/
def name : Expected := [.identifier]

/-- Behind the name of a binding that has no parameter yet. -/
def bindingName : Expected := [.equals, .identifier]

/-- Behind a parameter. -/
def param : Expected := [.equals, .identifier, .arrow]

end Expected

end Parse

end BasicSyntax
