import BasicSyntax.Operator

/-! # Nodes — the syntax tree of a program

    A program is a list of nodes.  One type holds them all: what may stand where is said by
    predicates, so that every function of this library answers for every tree, also for one
    that no text produces.  Where a node is expected a plain value or a sequence may stand too.

    Names, literals, functions and operators know the point of the text they come from.  A
    function has no environment: one is attached where functions are evaluated, reading never
    sets it, and no way of comparing or showing a tree looks at it. -/

namespace BasicSyntax

/-- A name where it stands. -/
structure Binder where
  text : String
  pos : Option Position
  deriving DecidableEq, Repr

/-- A plain value that stands where a node may stand. -/
inductive Datum
  | none
  | truth (value : Bool)
  | integer (value : Int)
  | text (value : String)
  deriving DecidableEq, Repr

/-- The two ways to enclose statements: braces make a block, square brackets a scope. -/
inductive Enclosure
  | block
  | scope
  deriving DecidableEq, Repr

/-- The two things that a name can be bound to: a value, or a template. -/
inductive BindingForm
  | value
  | template
  deriving DecidableEq, Repr

/-- A node of the tree. -/
inductive Node
  /-- A name. -/
  | binder (name : Binder)
  /-- The value that stands for no value. -/
  | unit (pos : Option Position)
  /-- A number. -/
  | number (value : Int) (pos : Option Position)
  /-- A text, as it is meant rather than as it is written. -/
  | string (literal : String) (pos : Option Position)
  /-- An argument left open. -/
  | underline (pos : Option Position)
  /-- A function; a parameter with a value is bound already. -/
  | function (params : List (Binder × Option Node)) (body : Node) (pos : Option Position)
  /-- A template as a value. -/
  | template (params : List Binder) (body : Node) (pos : Option Position)
  /-- An operator by itself. -/
  | operator (op : Operator)
  /-- An operand with a minus before it. -/
  | negative (primary : Node)
  /-- Two operands and the operator between them. -/
  | binary (left : Node) (op : Operator) (right : Node)
  /-- A node applied to arguments. -/
  | application (child : Node) (arguments : List Node)
  /-- Statements between brackets. -/
  | enclosed (form : Enclosure) (stmts : List Node)
  /-- The statement of an empty line. -/
  | null
  /-- A choice. -/
  | conditional (condition thenBlock : Node) (elseBlock : Option Node)
  /-- A repetition. -/
  | loop (condition body : Node)
  /-- A name given a meaning. -/
  | binding (form : BindingForm) (named : Binder) (params : Option (List Binder)) (codes : Node)
  /-- An operation that an evaluator provides. -/
  | native (tag : String) (params : List Binder)
  /-- A plain value. -/
  | datum (value : Datum)
  /-- A sequence. -/
  | tuple (items : List Node)
  deriving Repr, Inhabited

end BasicSyntax
