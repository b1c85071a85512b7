import Mathlib.Algebra.Group.Nat.Defs
import BasicSyntax.Node
import BasicSyntax.Proofs.Token.Lexeme
import BasicSyntax.Text.Integer
import BasicSyntax.Text.Literal

/-! # Well-formed trees — the nodes that programs are made of

    One type holds all nodes, and most trees of it are no program's.  Those that are come in
    four sorts, which are told by where a node may stand: expressions, arguments, clusters and
    statements.  Each says what its nodes are made of, down to names, numbers and texts, and
    what is not mentioned does not occur: values without a source form, operators by themselves,
    plain values, and empty statements inside of a statement.

    A function has no environment here; one that an evaluator attaches later is no part of the
    tree. -/

namespace BasicSyntax

/-- A text that can be written between quotes and read back: no backslash stands before an `n`
    in it, and encoded it may stand between quotes. -/
structure IsLiteral (literal : String) : Prop where
  plain : ¬ ['\\', 'n'] <:+: literal.toList
  body : isLiteralBody (Text.encodeLiteral literal.toList) = true

/-- A name where it stands. -/
def Binder.IsNamed (b : Binder) : Prop := IsName b.text.toList

namespace Node

mutual

/-- An expression. -/
inductive IsExpr : Node → Prop
  | name {b : Binder} : b.IsNamed → IsExpr (.binder b)
  | number {value : Nat} (pos : Option Position) : value < 10 ^ Text.digitLimit →
      IsExpr (.number value pos)
  | string {literal : String} (pos : Option Position) : IsLiteral literal →
      IsExpr (.string literal pos)
  | negative {n : Node} : IsExpr n → IsExpr (.negative n)
  | binary {left right : Node} {op : Operator} : IsExpr left → op.symbol ≠ .dummy →
      IsExpr right → IsExpr (.binary left op right)
  | application {b : Binder} {arguments : List Node} : b.IsNamed → arguments ≠ [] →
      (∀ n ∈ arguments, IsArgument n) → IsExpr (.application (.binder b) arguments)
  | function {params : List Binder} {body : Node} (pos : Option Position) : params ≠ [] →
      (∀ b ∈ params, b.IsNamed) → IsCluster body →
      IsExpr (.function (params.map fun b => (b, none)) body pos)

/-- An argument. -/
inductive IsArgument : Node → Prop
  | expr {n : Node} : IsExpr n → IsArgument n
  | underline (pos : Option Position) : IsArgument (.underline pos)
  | enclosed {stmts : List Node} (form : Enclosure) : (∀ n ∈ stmts, IsStmt n) →
      IsArgument (.enclosed form stmts)

/-- A cluster: what may be a body. -/
inductive IsCluster : Node → Prop
  | expr {n : Node} : IsExpr n → IsCluster n
  | enclosed {stmts : List Node} (form : Enclosure) : (∀ n ∈ stmts, IsStmt n) →
      IsCluster (.enclosed form stmts)

/-- A statement that is not empty. -/
inductive IsStmt : Node → Prop
  | cluster {n : Node} : IsCluster n → IsStmt n
  | conditional {condition thenBlock : Node} : IsExpr condition → IsCluster thenBlock →
      IsStmt (.conditional condition thenBlock none)
  | conditionalElse {condition thenBlock elseBlock : Node} : IsExpr condition →
      IsCluster thenBlock → IsCluster elseBlock →
      IsStmt (.conditional condition thenBlock (some elseBlock))
  | loop {condition body : Node} : IsExpr condition → IsCluster body →
      IsStmt (.loop condition body)
  | binding {named : Binder} {params : Option (List Binder)} {codes : Node}
      (form : BindingForm) : named.IsNamed →
      (∀ bs ∈ params, bs ≠ [] ∧ ∀ b ∈ bs, b.IsNamed) → IsCluster codes →
      IsStmt (.binding form named params codes)

end

/-- An entry of a program: a statement, or what an empty line stands for. -/
def IsEntry (n : Node) : Prop := n = .null ∨ n.IsStmt

end Node

end BasicSyntax
