import BasicSyntax.Terminal
import BasicSyntax.Text.Blank
import BasicSyntax.Text.DecimalDigit
import BasicSyntax.Text.WordChar

/-! # Lexemes — how each terminal is written

    For each terminal: how many characters at the front of a text it takes, if it stands there
    at all.  A name is a whole run of word characters that begins with no decimal digit and is
    no reserved word; so a reserved word is one only where the run ends with it. -/

namespace BasicSyntax

/-- The words that are no names. -/
def reservedWords : List (List Char) :=
  ["fun", "if", "while", "let", "else", "macro", "_"].map String.toList

namespace Lexeme

/-- The length of a run of characters of a class, if there is one. -/
def run? (class? : Char → Bool) (text : List Char) : Option Nat :=
  match text.takeWhile class? with
  | [] => none
  | run => some run.length

/-- The length of a name. -/
def name? (text : List Char) : Option Nat :=
  match text.takeWhile Text.isWordChar with
  | [] => none
  | c :: rest =>
    if Text.isDecimalDigit c || reservedWords.contains (c :: rest) then none
    else some (rest.length + 1)

/-- The length of a text that stands at the front as a whole. -/
def fixed? (spelling text : List Char) : Option Nat :=
  if spelling.isPrefixOf text then some spelling.length else none

/-- How far the closing quote of a string is, given how many characters precede the text.  A
    backslash takes the character after it along; a newline is never inside. -/
def closingQuote? (passed : Nat) : List Char → Option Nat
  | '"' :: _ => some (passed + 1)
  | '\\' :: c :: rest => if c == '\n' then none else closingQuote? (passed + 2) rest
  | c :: rest => if c == '\n' || c == '\\' then none else closingQuote? (passed + 1) rest
  | [] => none

/-- The length of a string with its quotes. -/
def string? : List Char → Option Nat
  | '"' :: rest => closingQuote? 1 rest
  | _ => none

/-- The length of an operator other than the minus. -/
def operator? : List Char → Option Nat
  | '<' :: '-' :: _ => some 2
  | '=' :: '=' :: _ => some 2
  | '!' :: '=' :: _ => some 2
  | c :: _ => if "<+*/%>".toList.contains c then some 1 else none
  | [] => none

/-- The length of a separator. -/
def separator? : List Char → Option Nat
  | c :: _ => if c == ';' || c == '\n' then some 1 else none
  | [] => none

end Lexeme

/-- How many characters a terminal takes at the front of a text. -/
def Terminal.length? (terminal : Terminal) (text : List Char) : Option Nat :=
  match terminal with
  | identifier => Lexeme.name? text
  | string => Lexeme.string? text
  | filler => Lexeme.run? Text.isFiller text
  | number => Lexeme.run? Char.isDigit text
  | operator => Lexeme.operator? text
  | separator => Lexeme.separator? text
  | _ =>
    match terminal.spelling? with
    | some spelling => Lexeme.fixed? spelling.toList text
    | none => none

/-- The terminal that stands at the front of a text, with its length: the first of the order
    that matches. -/
def Terminal.first? (text : List Char) : Option (Terminal × Nat) :=
  Terminal.order.findSome? fun terminal =>
    (terminal.length? text).map fun length => (terminal, length)

end BasicSyntax
