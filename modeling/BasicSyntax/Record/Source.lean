import BasicSyntax.Node.Source

/-! # Source form of records — also of those that are no node's

    A record that is a node's is printed as the node is.  In any other, some field holds what
    no node has there, and printing goes as far as that field lets it: a value that is pasted
    into a text is shown as listings show it, and one that has to be a text, a sequence, a name
    or an operator, and is not, is a misfit.

    Texts count as sequences of their characters.  What a record is printed as need not be a
    text either, because a name is printed as whatever it holds.  Records are printed however deep
    they are, as nodes are. -/

namespace BasicSyntax

/-- What is wrong with a record that cannot be printed, or whose parameters or arguments
    cannot be counted. -/
inductive Misfit
  /-- A tree that has no source form. -/
  | noSource (why : NoSource)
  /-- A number that has too many digits to be written. -/
  | longNumber
  /-- Something that lacks what it is asked for. -/
  | lacks (holder wanted : String)
  /-- Something that has no items where items are wanted. -/
  | noItems (holder : String)
  /-- Something that has no items where a name and its value are wanted. -/
  | noPair (holder : String)
  /-- Fewer items than a name and its value. -/
  | shortPair (items : Nat)
  /-- More items than a name and its value. -/
  | longPair
  /-- Something other than a text among the texts of a line. -/
  | inLine (index : Nat) (found : String)
  /-- Something other than a text behind a text. -/
  | behindText (found : String)
  /-- Something other than a text before the end of a line. -/
  | beforeLineEnd (found : String)
  deriving DecidableEq, Repr

/-- The complaint in words. -/
def Misfit.message : Misfit → String
  | noSource why => why.message
  | longNumber => Text.notWritableMessage
  | lacks holder wanted => s!"'{holder}' object has no attribute '{wanted}'"
  | noItems holder => s!"'{holder}' object is not iterable"
  | noPair holder => s!"cannot unpack non-iterable {holder} object"
  | shortPair items => s!"not enough values to unpack (expected 2, got {items})"
  | longPair => "too many values to unpack (expected 2)"
  | inLine index found => s!"sequence item {index}: expected str instance, {found} found"
  | behindText found => s!"can only concatenate str (not \"{found}\") to str"
  | beforeLineEnd found =>
    if found == (Record.sequence []).kindName then
      s!"can only concatenate {found} (not \"str\") to {found}"
    else s!"unsupported operand type(s) for +: '{found}' and 'str'"

/-- What kept a node from being printed, for its record. -/
def Misfit.ofPrint : PrintFault → Misfit
  | .noSource why => .noSource why
  | .longNumber => .longNumber

namespace Record

/-- The items of a record: those of a sequence, the characters of a text. -/
def items? : Record → Option (List Record)
  | sequence items => some items
  | leaf (.text text) => some (text.toList.map fun c => ofText (String.singleton c))
  | _ => none

/-- The items of a record that has to have some. -/
def items (record : Record) : Except Misfit (List Record) :=
  match record.items? with
  | some items => .ok items
  | none => .error (.noItems record.kindName)

/-- A parameter as its name and its value. -/
def param (record : Record) : Except Misfit (Record × Record) :=
  match record.items? with
  | none => .error (.noPair record.kindName)
  | some [name, value] => .ok (name, value)
  | some items => .error (if items.length < 2 then .shortPair items.length else .longPair)

/-- Whether a record is the plain value that stands for none. -/
def isNone : Record → Bool
  | leaf .none => true
  | _ => false

/-- Whether a record is a node of a kind. -/
def isOfKind (kind : Kind) : Record → Bool
  | node kind' _ _ => kind == kind'
  | _ => false

/-- Count the parameters that are not bound yet. -/
def openParams (params : Record) : Except Misfit Nat := do
  let pairs ← (← params.items).mapM param
  return (pairs.filter fun pair => pair.2.isNone).length

/-- Count the arguments that are not left open. -/
def givenArguments (arguments : Record) : Except Misfit Nat := do
  return ((← arguments.items).filter fun item => !item.isOfKind .underline).length

/-- What a name holds. -/
def nameText : Record → Except Misfit Record
  | node .binder _ [(_, text)] => .ok text
  | record => .error (.lacks record.kindName "text")

/-- The operator that a record is, when something of it is wanted. -/
def operatorFor (wanted : String) (record : Record) : Except Misfit Operator :=
  match record.toOperator? with
  | some op => .ok op
  | none => .error (.lacks record.kindName wanted)

/-- Whether a record counts as something rather than nothing. -/
def isFilled : Record → Bool
  | leaf .none => false
  | leaf (.truth value) => value
  | leaf (.integer value) => value != 0
  | leaf (.text text) => text != ""
  | sequence items => !items.isEmpty
  | node _ _ _ => true

/-- A line of texts that stand apart; `index` is the place of the first. -/
def lineOf (index : Nat) : List Record → Except Misfit (List String)
  | [] => .ok []
  | leaf (.text text) :: rest => do return text :: (← lineOf (index + 1) rest)
  | other :: _ => .error (.inLine index other.kindName)

/-- What a number holds, written. -/
def numberText : Record → Except Misfit Record
  | leaf (.integer value) =>
    if Text.isWritable value then .ok (ofText (toString value)) else .error .longNumber
  | value => .ok (ofText value.shown)

/-- A text with a record behind it. -/
def behind (text : String) : Record → Except Misfit String
  | leaf (.text more) => .ok (text ++ more)
  | other => .error (.behindText other.kindName)

/-- The names of parameters, none of which may be bound. -/
def paramNames : List Record → Except Misfit (List Record)
  | [] => .ok []
  | record :: rest => do
    let (name, value) ← record.param
    if !value.isNone then
      .error (.noSource (.boundParam (← name.nameText).shown))
    else
      let text ← name.nameText
      return text :: (← paramNames rest)

/-- The names of the parameters that a binding has, if it has any. -/
def bindingNames (params : Record) : Except Misfit (List Record) := do
  if params.isFilled then (← params.items).mapM nameText else .ok []

/-- What a binding begins with: its words, its name and the names of its parameters. -/
def bindingHead (form : BindingForm) (named params : Record) : Except Misfit String := do
  let name ← named.nameText
  let names ← bindingNames params
  return " ".intercalate (form.keyword :: (← lineOf 1 (name :: names)))

/-- Statements with their lines printed, between brackets whose closing one stands at a
    margin; without lines, the brackets alone. -/
def enclosedSource (form : Enclosure) (lines : List String) (margin : String) : String :=
  if lines.isEmpty then form.opening ++ form.closing
  else Node.enclosedSource form lines margin

/-- Whether a record may follow a minus without brackets. -/
def isPlainPrimary : Record → Bool :=
  isOfClass fun
    | .binder | .number | .string | .application => true
    | _ => false

/-- Whether a record may be an argument without brackets. -/
def isPlainArgument : Record → Bool :=
  isOfClass fun
    | .binder | .number | .string | .underline | .block | .scope => true
    | _ => false

/-- Whether a record may be a condition without brackets. -/
def isPlainCondition : Record → Bool :=
  isOfClass fun
    | .number | .string => true
    | _ => false

/-- An operand beside an operator, in brackets if it is a function or would be regrouped;
    `loose` tells whether it would be where the two operators bind alike. -/
def operandSource (op : Record) (loose : Operator → Bool) (operand printed : Record) :
    Except Misfit String :=
  match operand with
  | node .binary _ [_, (_, inner), _] => do
    let inner ← inner.operatorFor "priority"
    let outer ← op.operatorFor "priority"
    return bracketed
      (inner.symbol.priority < outer.symbol.priority ||
        (inner.symbol.priority == outer.symbol.priority && loose outer)) printed.shown
  | _ => .ok (bracketed (operand.isOfKind .function) printed.shown)

mutual

/-- Print a record from a level of indentation. -/
def printed (indent : String) (level : Nat) : Record → Except Misfit Record
  | node .binder _ [(_, text)] => .ok text
  | node .number _ [(_, value)] => value.numberText
  | node .string _ [(_, leaf (.text literal))] => .ok (ofText (Text.writeLiteral literal))
  | node .string _ [(_, literal)] => .error (.lacks literal.kindName "replace")
  | node .underline _ _ => .ok (ofText "_")
  | node .function _ [(_, params), (_, body)] => do
    let names ← lineOf 0 (← paramNames (← params.items))
    let bodyText ← printed indent level body
    return ofText (Node.functionSource names bodyText.shown)
  | node .operator _ [(_, op)] => .ok op
  | node .negative _ [(_, primary)] => do
    let text ← printed indent level primary
    if primary.isPlainPrimary then return ofText (← behind "-" text)
    else return ofText ("-" ++ bracketed true text.shown)
  | node .binary _ [(_, left), (_, op), (_, right)] => do
    let leftText ← operandSource op (fun op => !op.symbol.leftAssoc) left
      (← printed indent level left)
    let rightText ← operandSource op (fun op => op.symbol.leftAssoc) right
      (← printed indent level right)
    let joint ← op.operatorFor "op_str"
    return ofText (leftText ++ " " ++ joint.symbol.text ++ " " ++ rightText)
  | node .application _ [(_, node .binder _ [(_, text)]), (_, arguments)] => do
    let parts ← argumentsOf indent level arguments
    return ofText (" ".intercalate (← lineOf 0 (text :: parts)))
  | node .application _ _ => .error (.noSource .appliedNonName)
  | node .block _ [(_, stmts)] => do
    let lines ← linesOf indent (level + 1) stmts
    return ofText (enclosedSource .block lines (repeated indent level))
  | node .scope _ [(_, stmts)] => do
    let lines ← linesOf indent (level + 1) stmts
    return ofText (enclosedSource .scope lines (repeated indent level))
  | node .null _ _ => .ok (ofText "")
  | node .conditional _ [(_, condition), (_, thenBlock), (_, elseBlock)] => do
    let conditionText ← printed indent level condition
    let thenText ← printed indent level thenBlock
    let ifText := "if " ++ bracketed (!condition.isPlainCondition) conditionText.shown ++ " " ++
      thenText.shown
    match elseBlock with
    | leaf .none => return ofText ifText
    | elseBlock => return ofText (ifText ++ " else " ++ (← printed indent level elseBlock).shown)
  | node .loop _ [(_, condition), (_, body)] => do
    let conditionText ← printed indent level condition
    let bodyText ← printed indent level body
    return ofText ("while " ++ bracketed (!condition.isPlainCondition) conditionText.shown ++
      " " ++ bodyText.shown)
  | node .valueBinding _ [(_, named), (_, params), (_, codes)] => do
    let head ← bindingHead .value named params
    return ofText (head ++ " = " ++ (← printed indent level codes).shown)
  | node .templateBinding _ [(_, named), (_, params), (_, codes)] => do
    let head ← bindingHead .template named params
    return ofText (head ++ " = " ++ (← printed indent level codes).shown)
  | record => .error (.noSource (.kind record.kindName))

/-- Print the arguments that a record holds, those in brackets that need them. -/
def argumentsOf (indent : String) (level : Nat) : Record → Except Misfit (List Record)
  | sequence arguments => argumentsIn indent level arguments
  | record => do
    match ← record.items with
    | [] => .ok []
    | item :: _ => .error (.noSource (.kind item.kindName))

/-- Print arguments. -/
def argumentsIn (indent : String) (level : Nat) : List Record → Except Misfit (List Record)
  | [] => .ok []
  | argument :: rest => do
    let text ← printed indent level argument
    let part := if argument.isPlainArgument then text else ofText (bracketed true text.shown)
    return part :: (← argumentsIn indent level rest)

/-- Print the statements that a record holds on a line each, leaving out empty ones. -/
def linesOf (indent : String) (level : Nat) : Record → Except Misfit (List String)
  | sequence stmts => linesIn indent level stmts
  | record => do
    match ← record.items with
    | [] => .ok []
    | item :: _ => .error (.noSource (.kind item.kindName))

/-- Print statements on a line each. -/
def linesIn (indent : String) (level : Nat) : List Record → Except Misfit (List String)
  | [] => .ok []
  | node .null _ _ :: rest => linesIn indent level rest
  | stmt :: rest => do
    let line ← behind (repeated indent level) (← printed indent level stmt)
    return line :: (← linesIn indent level rest)

end

/-- What a record is printed as at a level of indentation, and the level behind it. -/
def source (indent : String) (level : Nat) (record : Record) : Except Misfit Record × Nat :=
  match record.toNode? with
  | none => (record.printed indent level, level)
  | some n =>
    let (result, reached) := n.print indent level
    (match result with
      | .ok text => .ok (ofText text)
      | .error fault => .error (.ofPrint fault), reached)

/-- The lines of a program, each ended by a newline. -/
def programSource (indent : String) (level : Nat) : List Record → Except Misfit String
  | [] => .ok ""
  | record :: rest =>
    let (result, reached) := record.source indent level
    do
      match ← result with
      | leaf (.text text) => return text ++ "\n" ++ (← programSource indent reached rest)
      | other => .error (.beforeLineEnd other.kindName)

end Record

end BasicSyntax
