import BasicSyntax.Parse.Context
import BasicSyntax.Parse.Expected
import BasicSyntax.Token

/-! # States — how far a program has been read

    Between two tokens the reader either waits for the first token of a part, or has just
    completed one and waits for the next token to tell what becomes of it. -/

namespace BasicSyntax.Parse

/-- How far a program has been read. -/
inductive State
  /-- Before a statement. -/
  | stmt (context : StmtContext)
  /-- Before an expression. -/
  | expr (context : ExprContext)
  /-- Before a cluster. -/
  | cluster (context : ClusterContext)
  /-- Before an operand. -/
  | primary (context : PrimaryContext)
  /-- Behind `let`, or behind `let macro`. -/
  | bindingHead (form : BindingForm) (context : StmtContext)
  /-- Behind the name of a binding, or behind a parameter of it; the last parameter first. -/
  | bindingParams (form : BindingForm) (named : Binder) (params : List Binder)
      (context : StmtContext)
  /-- Behind `fun`. -/
  | functionHead (pos : Position) (context : ExprContext)
  /-- Behind a parameter of a function; the last parameter first. -/
  | functionParams (pos : Position) (params : List Binder) (context : ExprContext)
  /-- Behind a name or an argument of it; the last argument first. -/
  | applied (callee : Binder) (arguments : List Node) (behindName : Bool)
      (context : PrimaryContext)
  /-- Behind a number or a string. -/
  | literal (node : Node) (context : PrimaryContext)
  /-- Behind the closing bracket of an operand. -/
  | group (node : Node) (context : PrimaryContext)
  /-- Behind the closing bracket of statements that are a cluster. -/
  | enclosed (node : Node) (context : ClusterContext)

namespace State

/-- Before the first token. -/
def start : State := stmt (.line [])

/-- The terminals that a state knows. -/
def expected : State → Expected
  | stmt (.line _) => .line
  | stmt (.item form true _ _) => .firstItem form
  | stmt (.item _ false _ _) => .laterItem
  | expr _ => .expr
  | cluster _ => .cluster
  | primary (.operand _ false _) => .operand
  | primary _ => .primary
  | bindingHead .value _ => .bindingHead
  | bindingHead .template _ => .name
  | functionHead _ _ => .name
  | bindingParams _ _ _ _ | functionParams _ _ _ => .afterName
  | applied _ _ true _ => .afterName
  | applied _ _ false _ | literal _ _ | enclosed _ _ => .afterArgument
  | group _ _ => .afterPrimary

end State

end BasicSyntax.Parse
