/-! # Lines — of characters, ended by the newline alone -/

namespace BasicSyntax.Text

/-- The part of a text after its last newline. -/
def lastLine (text : List Char) : List Char :=
  (text.reverse.takeWhile (· != '\n')).reverse

/-- The part of a text before its first newline. -/
def firstLine (text : List Char) : List Char :=
  text.takeWhile (· != '\n')

/-- The pieces of a text between the places where a mark stands: one more than there are
    marks. -/
def pieces (mark : Char) : List Char → List (List Char)
  | [] => [[]]
  | c :: rest =>
    if c == mark then [] :: pieces mark rest
    else match pieces mark rest with
      | [] => [[c]]
      | piece :: more => (c :: piece) :: more

/-- The lines that a reader of the text is handed one after the other: an empty piece after
    the last newline is none. -/
def readLines (text : List Char) : List (List Char) :=
  match (pieces '\n' text).getLast? with
  | some [] => (pieces '\n' text).dropLast
  | _ => pieces '\n' text

/-- A carriage return with the newline after it, and one without, both become a newline. -/
def unifyNewlines : List Char → List Char
  | '\r' :: '\n' :: rest => '\n' :: unifyNewlines rest
  | c :: rest => (if c == '\r' then '\n' else c) :: unifyNewlines rest
  | [] => []

end BasicSyntax.Text
