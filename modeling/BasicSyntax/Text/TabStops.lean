/-! # Tab stops — how wide a text is on the screen

    Tab stops stand at every eighth column, counted from the start of the text or from its last
    line end.  A carriage return counts as a character and starts the columns anew. -/

namespace BasicSyntax.Text

/-- The distance of tab stops. -/
def tabStop : Nat := 8

/-- The width of a text whose first character stands in the given column. -/
def widthFrom : Nat → List Char → Nat
  | _, [] => 0
  | column, c :: rest =>
    if c == '\t' then
      let step := tabStop - column % tabStop
      step + widthFrom (column + step) rest
    else if c == '\n' || c == '\r' then 1 + widthFrom 0 rest
    else 1 + widthFrom (column + 1) rest

/-- The width of a text once its tabs are filled up with blanks. -/
def width (text : List Char) : Nat :=
  widthFrom 0 text

end BasicSyntax.Text
