import BasicSyntax.Parse.State
import BasicSyntax.Text.Integer
import BasicSyntax.Text.Literal

/-! # Steps — what a token does to a state

    A token first closes what it cannot belong to: an operand, the expression that the operand
    ends, the cluster that the expression is, and so on outwards, each stage handing its node to
    the context around it.  Then it begins or continues what is left.  At a stage that does not
    know the token reading fails, and says what the stage knows.

    An argument is taken wherever one can begin, so a name with arguments goes on as long as
    the tokens allow. -/

namespace BasicSyntax.Parse

/-- The name that a token is. -/
def binderOf (t : Token) : Binder :=
  ⟨t.text, some t.pos⟩

/-- The number or string that a token is. -/
def literalOf (t : Token) : Node :=
  if t.terminal = .number then
    .number (Text.ofDigits (t.text.toList.map fun c => c.toNat - '0'.toNat)) (some t.pos)
  else .string (Text.readLiteral t.text) (some t.pos)

/-- The operator that a token is. -/
def operatorOf (t : Token) : Operator :=
  ⟨(Symbol.ofText? t.text).getD .dummy, some t.pos⟩

/-- Fail with what is expected, unless the token is among it. -/
def require (t : Token) (expected : Expected) : Except Expected Unit :=
  if t.terminal ∈ expected then .ok () else .error expected

/-- Fail with what is expected, unless the token begins something. -/
def begun (expected : Expected) : Option State → Except Expected State
  | some s => .ok s
  | none => .error expected

/-! ## Beginning a part -/

/-- Begin an operand that has its sign. -/
def beginPrimary? (t : Token) (c : PrimaryContext) : Option State :=
  match t.terminal with
  | .identifier => some (.applied (binderOf t) [] true c)
  | .number | .string => some (.literal (literalOf t) c)
  | .openParen => some (.expr (.group c))
  | _ => none

/-- Begin an operand after those before it. -/
def beginOperand? (t : Token) (before : List (Node × Operator)) (c : ExprContext) :
    Option State :=
  match t.terminal with
  | .minus => some (.primary (.operand before true c))
  | _ => beginPrimary? t (.operand before false c)

/-- Begin an expression. -/
def beginExpr? (t : Token) (c : ExprContext) : Option State :=
  match t.terminal with
  | .funWord => some (.functionHead t.pos c)
  | _ => beginOperand? t [] c

/-- Begin a cluster. -/
def beginCluster? (t : Token) (c : ClusterContext) : Option State :=
  match t.terminal with
  | .openBrace => some (.stmt (.item .block true [] (.cluster c)))
  | .openSquare => some (.stmt (.item .scope true [] (.cluster c)))
  | _ => beginExpr? t (.cluster c)

/-- Begin a statement. -/
def beginStmt? (t : Token) (c : StmtContext) : Option State :=
  match t.terminal with
  | .ifWord => some (.primary (.condition c))
  | .whileWord => some (.primary (.loopCondition c))
  | .letWord => some (.bindingHead .value c)
  | _ => beginCluster? t (.stmt c)

/-- Begin an argument, or take one that is a single token. -/
def beginArgument? (t : Token) (callee : Binder) (before : List Node) (c : PrimaryContext) :
    Option State :=
  match t.terminal with
  | .identifier => some (.applied callee (.binder (binderOf t) :: before) true c)
  | .number | .string => some (.applied callee (literalOf t :: before) false c)
  | .underline => some (.applied callee (.underline (some t.pos) :: before) false c)
  | .openParen => some (.expr (.argument callee before c))
  | .openBrace => some (.stmt (.item .block true [] (.argument callee before c)))
  | .openSquare => some (.stmt (.item .scope true [] (.argument callee before c)))
  | _ => none

/-! ## Completing a part -/

/-- A name with its arguments, the last of which comes first. -/
def applicationOf (callee : Binder) (arguments : List Node) : Node :=
  match arguments with
  | [] => .binder callee
  | _ => .application (.binder callee) arguments.reverse

/-- A run of operands, of which all but the latest have the operator after them, the last of
    them first. -/
def runOf (before : List (Node × Operator)) (latest : Node) : Node :=
  let (first, rest) := before.foldl
    (fun (acc : Node × List (Pair Node)) (item : Node × Operator) =>
      (item.1, (item.2, acc.1) :: acc.2)) (latest, [])
  resolve first rest

/-- The parameters of a binding, the last of which comes first; without any there is no list. -/
def paramsOf (params : List Binder) : Option (List Binder) :=
  match params with
  | [] => none
  | _ => some params.reverse

/-- A function as it is written: none of its parameters has a value. -/
def functionOf (pos : Position) (params : List Binder) (body : Node) : Node :=
  .function (params.reverse.map fun b => (b, none)) body (some pos)

/-- Put statements between brackets where they go. -/
def putEnclosed (n : Node) : EnclosedContext → State
  | .cluster c => .enclosed n c
  | .argument callee before c => .applied callee (n :: before) false c

/-- Close brackets behind statements, the last of which comes first. -/
def closeItems (t : Token) (form : Enclosure) (items : List Node) (c : EnclosedContext) :
    Except Expected State :=
  if t.terminal = form.closer then .ok (putEnclosed (.enclosed form items.reverse) c)
  else .error [form.closer]

/-- Complete a statement. -/
def closeStmt (t : Token) (n : Node) (c : StmtContext) : Except Expected State := do
  require t .afterStmt
  match c with
  | .line before =>
    require t [.separator]
    return .stmt (.line (n :: before))
  | .item form _ before outer =>
    if t.terminal = .separator then return .stmt (.item form false (n :: before) outer)
    closeItems t form (n :: before) outer

mutual

/-- Complete a cluster. -/
def closeCluster (t : Token) (n : Node) : ClusterContext → Except Expected State
  | .stmt c => closeStmt t n c
  | .thenBlock condition c => do
    require t .afterThen
    if t.terminal = .elseWord then return .cluster (.elseBlock condition n c)
    closeStmt t (.conditional condition n none) c
  | .elseBlock condition thenBlock c => closeStmt t (.conditional condition thenBlock (some n)) c
  | .loopBody condition c => closeStmt t (.loop condition n) c
  | .codes form named params c => closeStmt t (.binding form named (paramsOf params) n) c
  | .functionBody pos params c => do
    require t .afterExpr
    closeExpr t (functionOf pos params n) c

/-- Complete an expression. -/
def closeExpr (t : Token) (n : Node) : ExprContext → Except Expected State
  | .cluster c => closeCluster t n c
  | .group c => do
    require t [.closeParen]
    return .group n c
  | .argument callee before c => do
    require t [.closeParen]
    return .applied callee (n :: before) false c

end

/-- Complete an operand, its sign apart. -/
def closePrimary (t : Token) (n : Node) : PrimaryContext → Except Expected State
  | .condition c => begun .cluster (beginCluster? t (.thenBlock n c))
  | .loopCondition c => begun .cluster (beginCluster? t (.loopBody n c))
  | .operand before negated c => do
    require t .afterOperand
    let latest := if negated then .negative n else n
    if t.terminal = .operator ∨ t.terminal = .minus then
      return .primary (.operand ((latest, operatorOf t) :: before) false c)
    closeExpr t (runOf before latest) c

/-! ## One token, and all of them -/

/-- Read one token behind the name of a binding or a parameter of it. -/
def stepBinding (t : Token) (form : BindingForm) (named : Binder) (params : List Binder)
    (c : StmtContext) : Except Expected State := do
  require t .afterName
  require t (if params.isEmpty then .bindingName else .param)
  require t [.equals, .identifier]
    |>.mapError fun _ => [.equals]
  if t.terminal = .equals then return .cluster (.codes form named params c)
  return .bindingParams form named (binderOf t :: params) c

/-- Read one token behind a parameter of a function. -/
def stepFunction (t : Token) (pos : Position) (params : List Binder) (c : ExprContext) :
    Except Expected State := do
  require t .afterName
  require t .param
  require t [.arrow, .identifier]
    |>.mapError fun _ => [.arrow]
  if t.terminal = .arrow then return .cluster (.functionBody pos params c)
  return .functionParams pos (binderOf t :: params) c

/-- Read one token. -/
def step (t : Token) (s : State) : Except Expected State :=
  match s with
  | .stmt (.line before) =>
    if t.terminal = .separator then .ok (.stmt (.line (.null :: before)))
    else begun s.expected (beginStmt? t (.line before))
  | .stmt (.item form fresh before outer) => do
    require t s.expected
    if t.terminal = .separator then return .stmt (.item form false before outer)
    if t.terminal = .closeBrace ∨ t.terminal = .closeSquare then
      closeItems t form before outer
    else begun s.expected (beginStmt? t (.item form fresh before outer))
  | .expr c => begun s.expected (beginExpr? t c)
  | .cluster c => begun s.expected (beginCluster? t c)
  | .primary (.operand before false c) => begun s.expected (beginOperand? t before c)
  | .primary c => begun s.expected (beginPrimary? t c)
  | .bindingHead form c => do
    require t s.expected
    if t.terminal = .macroWord then return .bindingHead .template c
    return .bindingParams form (binderOf t) [] c
  | .bindingParams form named params c => stepBinding t form named params c
  | .functionHead pos c => do
    require t s.expected
    return .functionParams pos [binderOf t] c
  | .functionParams pos params c => stepFunction t pos params c
  | .applied callee arguments _ c => do
    require t s.expected
    match beginArgument? t callee arguments c with
    | some next => return next
    | none =>
      require t .afterArgument
      closePrimary t (applicationOf callee arguments) c
  | .literal n c => do
    require t s.expected
    require t .afterPrimary
    closePrimary t n c
  | .group n c => do
    require t s.expected
    closePrimary t n c
  | .enclosed n c => do
    require t s.expected
    require t .afterExpr
    closeCluster t n c

/-- A token at which reading fails, with what was expected instead. -/
structure Refusal where
  token : Token
  expected : Expected
  deriving Repr

/-- Read tokens up to the first that is refused. -/
def run (s : State) : List Token → Except Refusal State
  | [] => .ok s
  | t :: rest =>
    match step t s with
    | .ok next => run next rest
    | .error expected => .error ⟨t, expected⟩

/-- The program that has been read, if it may end here. -/
def finish : State → Except Expected (List Node)
  | .stmt (.line before) => .ok before.reverse
  | s => .error s.expected

end BasicSyntax.Parse
