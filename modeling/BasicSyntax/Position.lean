/-! # Positions — a line and a column of a text

    Both count from one.  A newline ends a line, and nothing else does; columns count
    characters. -/

namespace BasicSyntax

/-- A point of a text. -/
structure Position where
  line : Nat
  column : Nat
  deriving DecidableEq, Repr, Inhabited

namespace Position

/-- Where a text begins. -/
def start : Position := ⟨1, 1⟩

/-- The point after a character that stands at this one. -/
def after (p : Position) (c : Char) : Position :=
  if c == '\n' then ⟨p.line + 1, 1⟩ else ⟨p.line, p.column + 1⟩

/-- The point after a text that begins at this one. -/
def afterAll (p : Position) (text : List Char) : Position :=
  text.foldl after p

/-- The point after the last character of a text. -/
def endOf (text : String) : Position :=
  start.afterAll text.toList

end Position

end BasicSyntax
