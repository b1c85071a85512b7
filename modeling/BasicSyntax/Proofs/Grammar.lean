import BasicSyntax.Parse.Step

/-! # The grammar — derivation trees of programs

    A derivation is a tree whose inner nodes are rules of the grammar and whose leaves are
    tokens of the sorts that the rules ask for.  There is one type of tree for each sort of
    part and one constructor for each rule, so whatever can be built is a derivation:

    * `tokens` is the text of a derivation, as tokens from left to right;
    * `node` is its abstract syntax: empty statements between brackets are dropped, an empty
      line of the program is kept, and a run of operands is folded by `resolve`;
    * `Greedy` is the side condition that makes the grammar unambiguous: behind a chain of
      arguments there is never a token that could begin another one.  A condition is followed
      by a cluster, so this matters to conditions that are a bare name or application.

    Nothing here mentions the reader; `Proofs/Parse` ties the two together. -/

namespace BasicSyntax

/-- The terminal that opens brackets. -/
def Enclosure.opener : Enclosure → Terminal
  | block => .openBrace
  | scope => .openSquare

namespace Grammar

/-- A token of one of the given sorts. -/
structure Leaf (sorts : List Terminal) where
  token : Token
  fits : token.terminal ∈ sorts

/-- Sorts of token that are an operand by themselves. -/
def literalSorts : List Terminal := [.number, .string]

/-- Sorts of token that join operands. -/
def operatorSorts : List Terminal := [.operator, .minus]

/-- Sorts of token that are an argument by themselves. -/
def wordSorts : List Terminal := [.identifier, .number, .string, .underline]

mutual

/-- A statement that is not empty. -/
inductive Statement
  /-- `"if" primary cluster` -/
  | choice (ifWord : Leaf [.ifWord]) (condition : Primary) (thenBlock : Cluster)
  /-- `"if" primary cluster "else" cluster` -/
  | choiceElse (ifWord : Leaf [.ifWord]) (condition : Primary) (thenBlock : Cluster)
      (elseWord : Leaf [.elseWord]) (elseBlock : Cluster)
  /-- `"while" primary cluster` -/
  | loop (whileWord : Leaf [.whileWord]) (condition : Primary) (body : Cluster)
  /-- `"let" ["macro"] identifier [identifier+] "=" cluster` -/
  | binding (letWord : Leaf [.letWord]) (macroWord : Option (Leaf [.macroWord]))
      (named : Leaf [.identifier]) (params : List (Leaf [.identifier]))
      (equals : Leaf [.equals]) (codes : Cluster)
  | cluster (cluster : Cluster)

/-- What may be a body: an expression, or statements between brackets. -/
inductive Cluster
  | expr (expr : Expr)
  | enclosed (enclosed : Enclosed)

/-- Statements between brackets. -/
inductive Enclosed
  /-- `"{" items "}"` or `"[" items "]"` -/
  | make (form : Enclosure) (opening : Leaf [form.opener]) (items : Items)
      (closing : Leaf [form.closer])

/-- `[statement] (separator [statement])*` -/
inductive Items
  | empty
  | last (statement : Statement)
  | skip (separator : Leaf [.separator]) (rest : Items)
  | cons (statement : Statement) (separator : Leaf [.separator]) (rest : Items)

/-- An expression. -/
inductive Expr
  | run (run : Run)
  /-- `"fun" identifier+ "->" cluster` -/
  | function (funWord : Leaf [.funWord]) (param : Leaf [.identifier])
      (params : List (Leaf [.identifier])) (arrow : Leaf [.arrow]) (body : Cluster)

/-- `factor (operator factor)*`, where a factor is `["-"] primary` -/
inductive Run
  | last (sign : Option (Leaf [.minus])) (primary : Primary)
  | cons (sign : Option (Leaf [.minus])) (primary : Primary) (op : Leaf operatorSorts)
      (rest : Run)

/-- An operand, its sign apart. -/
inductive Primary
  /-- `"(" expr ")"` -/
  | group (opening : Leaf [.openParen]) (expr : Expr) (closing : Leaf [.closeParen])
  | literal (token : Leaf literalSorts)
  /-- `identifier postfix*` -/
  | applied (name : Leaf [.identifier]) (chain : Chain)

/-- `postfix*` -/
inductive Chain
  | done
  /-- `"(" expr ")"` before the rest of the chain. -/
  | group (opening : Leaf [.openParen]) (expr : Expr) (closing : Leaf [.closeParen])
      (rest : Chain)
  | enclosed (enclosed : Enclosed) (rest : Chain)
  /-- A name, a number, a string or an underline before the rest of the chain. -/
  | word (token : Leaf wordSorts) (rest : Chain)

end

/-! ## The tokens of a derivation -/

/-- The tokens of leaves. -/
def leafTokens {sorts : List Terminal} (leaves : List (Leaf sorts)) : List Token :=
  leaves.map Leaf.token

/-- The token of a leaf that may be missing. -/
def optionTokens {sorts : List Terminal} (leaf : Option (Leaf sorts)) : List Token :=
  leafTokens leaf.toList

mutual

/-- The tokens of a statement. -/
def Statement.tokens : Statement → List Token
  | .choice ifWord condition thenBlock =>
    ifWord.token :: (condition.tokens ++ thenBlock.tokens)
  | .choiceElse ifWord condition thenBlock elseWord elseBlock =>
    ifWord.token ::
      (condition.tokens ++ (thenBlock.tokens ++ elseWord.token :: elseBlock.tokens))
  | .loop whileWord condition body => whileWord.token :: (condition.tokens ++ body.tokens)
  | .binding letWord macroWord named params equals codes =>
    letWord.token :: (optionTokens macroWord ++
      named.token :: (leafTokens params ++ equals.token :: codes.tokens))
  | .cluster cluster => cluster.tokens

/-- The tokens of a cluster. -/
def Cluster.tokens : Cluster → List Token
  | .expr expr => expr.tokens
  | .enclosed enclosed => enclosed.tokens

/-- The tokens of statements between brackets, brackets included. -/
def Enclosed.tokens : Enclosed → List Token
  | .make _ opening items closing => opening.token :: (items.tokens ++ [closing.token])

/-- The tokens between brackets. -/
def Items.tokens : Items → List Token
  | .empty => []
  | .last statement => statement.tokens
  | .skip separator rest => separator.token :: rest.tokens
  | .cons statement separator rest => statement.tokens ++ separator.token :: rest.tokens

/-- The tokens of an expression. -/
def Expr.tokens : Expr → List Token
  | .run run => run.tokens
  | .function funWord param params arrow body =>
    funWord.token :: param.token :: (leafTokens params ++ arrow.token :: body.tokens)

/-- The tokens of a run. -/
def Run.tokens : Run → List Token
  | .last sign primary => optionTokens sign ++ primary.tokens
  | .cons sign primary op rest =>
    optionTokens sign ++ (primary.tokens ++ op.token :: rest.tokens)

/-- The tokens of an operand. -/
def Primary.tokens : Primary → List Token
  | .group opening expr closing => opening.token :: (expr.tokens ++ [closing.token])
  | .literal token => [token.token]
  | .applied name chain => name.token :: chain.tokens

/-- The tokens of a chain. -/
def Chain.tokens : Chain → List Token
  | .done => []
  | .group opening expr closing rest =>
    opening.token :: (expr.tokens ++ closing.token :: rest.tokens)
  | .enclosed enclosed rest => enclosed.tokens ++ rest.tokens
  | .word token rest => token.token :: rest.tokens

end

/-! ## The abstract syntax of a derivation -/

/-- The names that leaves are. -/
def names {sorts : List Terminal} (leaves : List (Leaf sorts)) : List Binder :=
  leaves.map fun leaf => Parse.binderOf leaf.token

/-- The parameters of a binding: without any there is no list. -/
def paramList : List Binder → Option (List Binder)
  | [] => none
  | params => some params

/-- A function none of whose parameters has a value. -/
def functionNode (pos : Position) (params : List Binder) (body : Node) : Node :=
  .function (params.map fun b => (b, none)) body (some pos)

/-- A name with its arguments; without any it is the name itself. -/
def applicationNode (callee : Binder) : List Node → Node
  | [] => .binder callee
  | arguments => .application (.binder callee) arguments

/-- The argument that a token is by itself. -/
def wordNode (t : Token) : Node :=
  match t.terminal with
  | .identifier => .binder (Parse.binderOf t)
  | .underline => .underline (some t.pos)
  | _ => Parse.literalOf t

/-- An operand behind a sign, if there is one. -/
def signed {sorts : List Terminal} (sign : Option (Leaf sorts)) (n : Node) : Node :=
  if sign.isSome then .negative n else n

/-- The form of a binding, by the word behind `let`. -/
def bindingForm {sorts : List Terminal} (macroWord : Option (Leaf sorts)) : BindingForm :=
  if macroWord.isSome then .template else .value

mutual

/-- The node of a statement. -/
def Statement.node : Statement → Node
  | .choice _ condition thenBlock => .conditional condition.node thenBlock.node none
  | .choiceElse _ condition thenBlock _ elseBlock =>
    .conditional condition.node thenBlock.node (some elseBlock.node)
  | .loop _ condition body => .loop condition.node body.node
  | .binding _ macroWord named params _ codes =>
    .binding (bindingForm macroWord) (Parse.binderOf named.token) (paramList (names params))
      codes.node
  | .cluster cluster => cluster.node

/-- The node of a cluster. -/
def Cluster.node : Cluster → Node
  | .expr expr => expr.node
  | .enclosed enclosed => enclosed.node

/-- The node of statements between brackets. -/
def Enclosed.node : Enclosed → Node
  | .make form _ items _ => .enclosed form items.nodes

/-- The nodes of the statements between brackets that are not empty. -/
def Items.nodes : Items → List Node
  | .empty => []
  | .last statement => [statement.node]
  | .skip _ rest => rest.nodes
  | .cons statement _ rest => statement.node :: rest.nodes

/-- The node of an expression. -/
def Expr.node : Expr → Node
  | .run run => resolve run.operands.1 run.operands.2
  | .function funWord param params _ body =>
    functionNode funWord.token.pos (names (param :: params)) body.node

/-- The operands of a run, each but the first with the operator before it. -/
def Run.operands : Run → Node × List (Pair Node)
  | .last sign primary => (signed sign primary.node, [])
  | .cons sign primary op rest =>
    (signed sign primary.node,
      (Parse.operatorOf op.token, rest.operands.1) :: rest.operands.2)

/-- The node of an operand. -/
def Primary.node : Primary → Node
  | .group _ expr _ => expr.node
  | .literal token => Parse.literalOf token.token
  | .applied name chain => applicationNode (Parse.binderOf name.token) chain.nodes

/-- The nodes of the arguments in a chain. -/
def Chain.nodes : Chain → List Node
  | .done => []
  | .group _ expr _ rest => expr.node :: rest.nodes
  | .enclosed enclosed rest => enclosed.node :: rest.nodes
  | .word token rest => wordNode token.token :: rest.nodes

end

/-! ## Greediness -/

/-- Sorts of token that can begin an argument. -/
def postfixSorts : List Terminal :=
  [.identifier, .openBrace, .openParen, .openSquare, .number, .string, .underline]

/-- No token of the sorts comes next. -/
def Stops (sorts : List Terminal) : List Token → Prop
  | [] => True
  | t :: _ => t.terminal ∉ sorts

/-- No argument can begin with the tokens that come next. -/
abbrev ChainEnds : List Token → Prop := Stops postfixSorts

mutual

/-- Every chain in a statement is maximal, given the tokens behind the statement. -/
def Statement.Greedy : Statement → List Token → Prop
  | .choice _ condition thenBlock, next =>
    condition.Greedy (thenBlock.tokens ++ next) ∧ thenBlock.Greedy next
  | .choiceElse _ condition thenBlock elseWord elseBlock, next =>
    condition.Greedy (thenBlock.tokens ++ elseWord.token :: (elseBlock.tokens ++ next)) ∧
      thenBlock.Greedy (elseWord.token :: (elseBlock.tokens ++ next)) ∧ elseBlock.Greedy next
  | .loop _ condition body, next => condition.Greedy (body.tokens ++ next) ∧ body.Greedy next
  | .binding _ _ _ _ _ codes, next => codes.Greedy next
  | .cluster cluster, next => cluster.Greedy next

/-- Every chain in a cluster is maximal. -/
def Cluster.Greedy : Cluster → List Token → Prop
  | .expr expr, next => expr.Greedy next
  | .enclosed enclosed, next => enclosed.Greedy next

/-- Every chain between brackets is maximal. -/
def Enclosed.Greedy : Enclosed → List Token → Prop
  | .make _ _ items closing, next => items.Greedy (closing.token :: next)

/-- Every chain in the statements between brackets is maximal. -/
def Items.Greedy : Items → List Token → Prop
  | .empty, _ => True
  | .last statement, next => statement.Greedy next
  | .skip _ rest, next => rest.Greedy next
  | .cons statement separator rest, next =>
    statement.Greedy (separator.token :: (rest.tokens ++ next)) ∧ rest.Greedy next

/-- Every chain in an expression is maximal. -/
def Expr.Greedy : Expr → List Token → Prop
  | .run run, next => run.Greedy next
  | .function _ _ _ _ body, next => body.Greedy next

/-- Every chain in a run is maximal. -/
def Run.Greedy : Run → List Token → Prop
  | .last _ primary, next => primary.Greedy next
  | .cons _ primary op rest, next =>
    primary.Greedy (op.token :: (rest.tokens ++ next)) ∧ rest.Greedy next

/-- Every chain in an operand is maximal. -/
def Primary.Greedy : Primary → List Token → Prop
  | .group _ expr closing, next => expr.Greedy (closing.token :: next)
  | .literal _, _ => True
  | .applied _ chain, next => chain.Greedy next

/-- A chain and every chain in its arguments is maximal. -/
def Chain.Greedy : Chain → List Token → Prop
  | .done, next => ChainEnds next
  | .group _ expr closing rest, next =>
    expr.Greedy (closing.token :: (rest.tokens ++ next)) ∧ rest.Greedy next
  | .enclosed enclosed rest, next =>
    enclosed.Greedy (rest.tokens ++ next) ∧ rest.Greedy next
  | .word _ rest, next => rest.Greedy next

end

/-! ## Programs -/

/-- `[statement] separator` -/
structure Line where
  statement : Option Statement
  separator : Leaf [.separator]

/-- The tokens of a line. -/
def Line.tokens (line : Line) : List Token :=
  match line.statement with
  | none => [line.separator.token]
  | some statement => statement.tokens ++ [line.separator.token]

/-- The entry of a line in the program. -/
def Line.node (line : Line) : Node :=
  match line.statement with
  | none => .null
  | some statement => statement.node

/-- Every chain in a line is maximal, given the tokens behind the line. -/
def Line.Greedy (line : Line) (next : List Token) : Prop :=
  ∀ statement ∈ line.statement, statement.Greedy (line.separator.token :: next)

/-- `line*` -/
abbrev Derivation := List Line

/-- The tokens of a program. -/
def Derivation.tokens (d : Derivation) : List Token :=
  d.flatMap Line.tokens

/-- The entries of a program, one for each line. -/
def Derivation.nodes (d : Derivation) : List Node :=
  d.map Line.node

/-- Every chain in a program is maximal. -/
def Derivation.Greedy : Derivation → Prop
  | [] => True
  | line :: rest => line.Greedy (Derivation.tokens rest) ∧ Derivation.Greedy rest

end Grammar

end BasicSyntax
