/-! # Kinds — the sorts of node, by name

    A kind fixes the fields of a node and their order, and whether a node of it knows the point
    of the text it comes from.  Kinds form classes, each of which contains the one before: what
    a name can be bound to, operands, expressions, clusters (what may be a body), statements.
    The operator is in none of them. -/

namespace BasicSyntax

/-- The sorts of node. -/
inductive Kind
  | binder
  | unit
  | number
  | string
  | underline
  | function
  | template
  | operator
  | negative
  | binary
  | application
  | block
  | scope
  | null
  | conditional
  | loop
  | valueBinding
  | templateBinding
  | native
  deriving DecidableEq, Repr, Inhabited

namespace Kind

/-- Every kind. -/
def all : List Kind :=
  [binder, unit, number, string, underline, function, template, operator, negative, binary,
    application, block, scope, null, conditional, loop, valueBinding, templateBinding, native]

/-- The name of a kind. -/
def name : Kind → String
  | binder => "Binder"
  | unit => "UnitLiteral"
  | number => "NumberLiteral"
  | string => "StringLiteral"
  | underline => "UnderLine"
  | function => "Function"
  | template => "Macro"
  | operator => "Operator"
  | negative => "NegativeExpr"
  | binary => "BinaryExpr"
  | application => "PrimaryExpr"
  | block => "BlockStmt"
  | scope => "ScopeStmt"
  | null => "NullStmt"
  | conditional => "IfStmt"
  | loop => "WhileStmt"
  | valueBinding => "LetStmt"
  | templateBinding => "MacroStmt"
  | native => "NativeStmt"

/-- The kind of a name. -/
def ofName? (text : String) : Option Kind :=
  all.find? fun kind => kind.name == text

/-- The fields of a kind, in their order. -/
def fields : Kind → List String
  | binder => ["text"]
  | unit | underline | null => []
  | number => ["value"]
  | string => ["literal"]
  | function | template => ["params", "body"]
  | operator => ["op_str"]
  | negative => ["primary"]
  | binary => ["left", "op", "right"]
  | application => ["child", "arguments"]
  | block | scope => ["stmts"]
  | conditional => ["condition", "then_block", "else_block"]
  | loop => ["condition", "body"]
  | valueBinding | templateBinding => ["named", "params", "codes"]
  | native => ["tag", "params"]

/-- Whether a node of a kind knows the point of the text it comes from. -/
def isPlaced : Kind → Bool
  | binder | unit | number | string | underline | function | template | operator => true
  | _ => false

/-- Whether a node of a kind is a value that a name can be bound to. -/
def isBindable : Kind → Bool
  | unit | number | string | function | template => true
  | _ => false

/-- Whether a node of a kind is an operand. -/
def isOperand (k : Kind) : Bool :=
  k.isBindable || match k with
    | binder | underline => true
    | _ => false

/-- Whether a node of a kind is an expression. -/
def isExpr (k : Kind) : Bool :=
  k.isOperand || match k with
    | negative | binary | application => true
    | _ => false

/-- Whether a node of a kind is a cluster. -/
def isCluster (k : Kind) : Bool :=
  k.isExpr || match k with
    | block | scope => true
    | _ => false

/-- Whether a node of a kind is a statement. -/
def isStmt (k : Kind) : Bool :=
  k.isCluster || match k with
    | null | conditional | loop | valueBinding | templateBinding | native => true
    | _ => false

end Kind

end BasicSyntax
