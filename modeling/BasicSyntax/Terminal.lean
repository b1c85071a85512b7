/-! # Terminals — the sorts of token, and what may stand at a point

    Filler and the end of the input count as terminals: filler because it is matched like the
    others, and the end because a text may be expected to end.  A terminal is known by a name
    and shown to a reader by a description; terminals of one spelling are described by it. -/

namespace BasicSyntax

/-- The sorts of token, filler, and the end of the input. -/
inductive Terminal
  | identifier
  | string
  | filler
  | number
  | macroWord
  | whileWord
  | elseWord
  | funWord
  | letWord
  | operator
  | ifWord
  | arrow
  | separator
  | equals
  | openBrace
  | openParen
  | openSquare
  | minus
  | closeBrace
  | closeParen
  | closeSquare
  | underline
  | endOfInput
  deriving DecidableEq, Repr

namespace Terminal

/-- The sorts of token and filler, in the order in which they are tried: the first that
    matches at a point is taken. -/
def order : List Terminal :=
  [identifier, string, filler, number, macroWord, whileWord, elseWord, funWord, letWord,
    operator, ifWord, arrow, separator, equals, openBrace, openParen, openSquare, minus,
    closeBrace, closeParen, closeSquare, underline]

/-- The one spelling of a terminal, if it has just one. -/
def spelling? : Terminal → Option String
  | macroWord => some "macro"
  | whileWord => some "while"
  | elseWord => some "else"
  | funWord => some "fun"
  | letWord => some "let"
  | ifWord => some "if"
  | arrow => some "->"
  | equals => some "="
  | openBrace => some "\x7b"
  | openParen => some "("
  | openSquare => some "["
  | minus => some "-"
  | closeBrace => some "\x7d"
  | closeParen => some ")"
  | closeSquare => some "]"
  | underline => some "_"
  | _ => none

/-- The name of a terminal. -/
def name : Terminal → String
  | identifier => "IDENT"
  | string => "STRING"
  | filler => "WS"
  | number => "NUMBER"
  | macroWord => "MACRO"
  | whileWord => "WHILE"
  | elseWord => "ELSE"
  | funWord => "FUN"
  | letWord => "LET"
  | operator => "OP"
  | ifWord => "IF"
  | arrow => "_ARROW"
  | separator => "_SEP"
  | equals => "EQUAL"
  | openBrace => "LBRACE"
  | openParen => "LPAR"
  | openSquare => "LSQB"
  | minus => "MINUS"
  | closeBrace => "RBRACE"
  | closeParen => "RPAR"
  | closeSquare => "RSQB"
  | underline => "UNDERLINE"
  | endOfInput => "$END"

/-- The terminal of a name; the end of the input has two. -/
def ofName? (text : String) : Option Terminal :=
  if text == "<END-OF-FILE>" then some endOfInput
  else (endOfInput :: order).find? fun terminal => terminal.name == text

/-- What a reader is told of a terminal. -/
def description : Terminal → String
  | identifier => "identifier"
  | number => "number"
  | string => "string"
  | operator => "operator"
  | separator => "\";\" or newline"
  | endOfInput => "end of input"
  | terminal => "\"" ++ terminal.spelling?.getD terminal.name ++ "\""

/-- Descriptions in the order of their code points, each once. -/
def inOrder (descriptions : List String) : List String :=
  descriptions.eraseDups.mergeSort fun a b => a ≤ b

/-- What a reader is told may stand at a point; filler, which may stand anywhere, is not
    mentioned. -/
def describe (terminals : List Terminal) : List String :=
  inOrder ((terminals.filter (· != filler)).map description)

/-- The same for names, of which one that belongs to no terminal describes itself. -/
def describeNames (names : List String) : List String :=
  inOrder (names.filterMap fun text =>
    match ofName? text with
    | some filler => none
    | some terminal => some terminal.description
    | none => some text)

end Terminal

end BasicSyntax
