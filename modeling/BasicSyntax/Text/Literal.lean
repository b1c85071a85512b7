/-! # String literals — as written in a program and as meant

    A newline is written as a backslash and an `n`.  Nothing else is encoded: a backslash before
    any other character stays, with that character, part of the text that is meant. -/

namespace BasicSyntax.Text

/-- A text as it is written between quotes. -/
def encodeLiteral : List Char → List Char
  | [] => []
  | c :: rest => if c == '\n' then '\\' :: 'n' :: encodeLiteral rest else c :: encodeLiteral rest

/-- The text that is meant by what stands between quotes. -/
def decodeLiteral : List Char → List Char
  | [] => []
  | '\\' :: 'n' :: rest => '\n' :: decodeLiteral rest
  | c :: rest => c :: decodeLiteral rest

/-- What stands between the first and the last character. -/
def betweenQuotes (written : List Char) : List Char :=
  (written.drop 1).dropLast

/-- The text that a written string means. -/
def readLiteral (written : String) : String :=
  String.ofList (decodeLiteral (betweenQuotes written.toList))

/-- A text as it is written, with its quotes. -/
def writeLiteral (text : String) : String :=
  String.ofList ('"' :: (encodeLiteral text.toList ++ ['"']))

end BasicSyntax.Text
