import BasicSyntax.Node.Source

/-! # Rendering — the ways to show a program

    All three ways follow a tree as deep as it goes; none counts how deep that is. -/

namespace BasicSyntax

/-- The ways to show a program. -/
inductive Mode
  | source
  | outline
  | listing
  deriving DecidableEq, Repr

/-- The way of a name; of any other name it is the listing. -/
def Mode.ofName (name : String) : Mode :=
  if name == "format" then .source
  else if name == "dump" then .outline
  else .listing

/-- A program shown in some way. -/
def render (mode : Mode) (stmts : List Node) : Except PrintFault String :=
  match mode with
  | .source =>
    (Node.programSource stmts).map fun text =>
      String.ofList (Text.trimEnd (· == '\n') text.toList)
  | .outline => .ok ("\n".intercalate (stmts.map Node.outline))
  | .listing => .ok ("\n".intercalate (stmts.map Node.listing))

end BasicSyntax
