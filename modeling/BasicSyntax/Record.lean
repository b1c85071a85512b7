import BasicSyntax.Kind
import BasicSyntax.Node

/-! # Records — trees of named fields

    A record has a kind, perhaps a place, and the fields of its kind.  Every node has a record
    form, and what only looks at kinds, fields and values (comparing, listing, outlining) is
    said for records once.

    A field of a record may hold anything, so there are records that are no node's.  Reading a
    record as a node finds out, and gives back the node a record was made from. -/

namespace BasicSyntax

/-- A point as a record carries it: any two numbers. -/
structure Place where
  line : Int
  column : Int
  deriving DecidableEq, Repr

/-- A point of a text as a place. -/
def Position.toPlace (p : Position) : Place :=
  ⟨p.line, p.column⟩

/-- A place as a point of a text. -/
def Place.toPosition (p : Place) : Position :=
  ⟨p.line.toNat, p.column.toNat⟩

/-- A place as outlines show it. -/
def Place.text (p : Place) : String :=
  s!"{p.line}:{p.column}"

/-- A tree of named fields over plain values and sequences. -/
inductive Record
  | leaf (value : Datum)
  | sequence (items : List Record)
  | node (kind : Kind) (place : Option Place) (fields : List (String × Record))
  deriving Repr, Inhabited

namespace Record

/-- A record with the fields of its kind. -/
def make (kind : Kind) (pos : Option Position) (values : List Record) : Record :=
  node kind (pos.map Position.toPlace) (kind.fields.zip values)

/-- A record that holds a text. -/
def ofText (text : String) : Record :=
  leaf (.text text)

/-- A name as a record. -/
def ofBinder (b : Binder) : Record :=
  make .binder b.pos [ofText b.text]

/-- An operator as a record. -/
def ofOperator (op : Operator) : Record :=
  make .operator op.pos [ofText op.symbol.text]

/-- Names as a sequence. -/
def ofBinders (bs : List Binder) : Record :=
  sequence (bs.map ofBinder)

/-- Two records joined by an operator. -/
def join (left : Record) (op : Operator) (right : Record) : Record :=
  make .binary none [left, ofOperator op, right]

/-- What a record is called: its kind, or the sort of plain value it is. -/
def kindName : Record → String
  | node kind _ _ => kind.name
  | sequence _ => "tuple"
  | leaf .none => "NoneType"
  | leaf (.truth _) => "bool"
  | leaf (.integer _) => "int"
  | leaf (.text _) => "str"

/-- Whether a record is of a kind in a class. -/
def isOfClass (inClass : Kind → Bool) : Record → Bool
  | node kind _ _ => inClass kind
  | _ => false

end Record

/-- The kind of a node of this form. -/
def Enclosure.kind : Enclosure → Kind
  | block => .block
  | scope => .scope

/-- The kind of a node of this form. -/
def BindingForm.kind : BindingForm → Kind
  | value => .valueBinding
  | template => .templateBinding

mutual

/-- The record form of a node. -/
def Node.toRecord : Node → Record
  | .binder b => .ofBinder b
  | .unit pos => .make .unit pos []
  | .number value pos => .make .number pos [.leaf (.integer value)]
  | .string literal pos => .make .string pos [.ofText literal]
  | .underline pos => .make .underline pos []
  | .function params body pos =>
    .make .function pos [.sequence (paramRecords params), body.toRecord]
  | .template params body pos => .make .template pos [.ofBinders params, body.toRecord]
  | .operator op => .ofOperator op
  | .negative primary => .make .negative none [primary.toRecord]
  | .binary left op right => .join left.toRecord op right.toRecord
  | .application child arguments =>
    .make .application none [child.toRecord, .sequence (recordsOf arguments)]
  | .enclosed form stmts => .make form.kind none [.sequence (recordsOf stmts)]
  | .null => .make .null none []
  | .conditional condition thenBlock elseBlock =>
    .make .conditional none
      [condition.toRecord, thenBlock.toRecord, recordOfOption elseBlock]
  | .loop condition body => .make .loop none [condition.toRecord, body.toRecord]
  | .binding form named params codes =>
    .make form.kind none
      [.ofBinder named, (params.map Record.ofBinders).getD (.leaf .none), codes.toRecord]
  | .native tag params => .make .native none [.ofText tag, .ofBinders params]
  | .datum value => .leaf value
  | .tuple items => .sequence (recordsOf items)

/-- The record form of a node that may be missing. -/
def recordOfOption : Option Node → Record
  | none => .leaf .none
  | some n => n.toRecord

/-- The record forms of nodes. -/
def recordsOf : List Node → List Record
  | [] => []
  | n :: rest => n.toRecord :: recordsOf rest

/-- The record forms of parameters: each is a name with its value. -/
def paramRecords : List (Binder × Option Node) → List Record
  | [] => []
  | (b, value) :: rest => .sequence [.ofBinder b, recordOfOption value] :: paramRecords rest

end

/-- What a node is called. -/
def Node.kindName (n : Node) : String :=
  n.toRecord.kindName

namespace Record

/-- The point of a record. -/
def posOf (place : Option Place) : Option Position :=
  place.map Place.toPosition

/-- Read a record as a name. -/
def toBinder? : Record → Option Binder
  | node .binder place [(_, leaf (.text text))] => some ⟨text, posOf place⟩
  | _ => none

/-- Read a record as an operator. -/
def toOperator? : Record → Option Operator
  | node .operator place [(_, leaf (.text text))] =>
    (Symbol.ofText? text).map fun symbol => ⟨symbol, posOf place⟩
  | _ => none

/-- Read a record as names. -/
def toBinders? : Record → Option (List Binder)
  | sequence items => items.mapM toBinder?
  | _ => none

/-- Read a record as names that may be missing altogether. -/
def toParams? : Record → Option (Option (List Binder))
  | leaf .none => some none
  | record => record.toBinders?.map some

mutual

/-- Read a record as a node. -/
def toNode? : Record → Option Node
  | leaf value => some (.datum value)
  | sequence items => (toNodes? items).map .tuple
  | node .unit place [] => some (.unit (posOf place))
  | node .number place [(_, leaf (.integer value))] => some (.number value (posOf place))
  | node .string place [(_, leaf (.text literal))] => some (.string literal (posOf place))
  | node .underline place [] => some (.underline (posOf place))
  | node .function place [(_, sequence params), (_, body)] => do
    return .function (← toFunctionParams? params) (← toNode? body) (posOf place)
  | node .template place [(_, params), (_, body)] => do
    return .template (← params.toBinders?) (← toNode? body) (posOf place)
  | node .negative _ [(_, primary)] => (toNode? primary).map .negative
  | node .binary _ [(_, left), (_, op), (_, right)] => do
    return .binary (← toNode? left) (← op.toOperator?) (← toNode? right)
  | node .application _ [(_, child), (_, sequence arguments)] => do
    return .application (← toNode? child) (← toNodes? arguments)
  | node .block _ [(_, sequence stmts)] => (toNodes? stmts).map (.enclosed .block)
  | node .scope _ [(_, sequence stmts)] => (toNodes? stmts).map (.enclosed .scope)
  | node .null _ [] => some .null
  | node .conditional _ [(_, condition), (_, thenBlock), (_, leaf .none)] => do
    return .conditional (← toNode? condition) (← toNode? thenBlock) none
  | node .conditional _ [(_, condition), (_, thenBlock), (_, elseBlock)] => do
    return .conditional (← toNode? condition) (← toNode? thenBlock) (← toNode? elseBlock)
  | node .loop _ [(_, condition), (_, body)] => do
    return .loop (← toNode? condition) (← toNode? body)
  | node .valueBinding _ [(_, named), (_, params), (_, codes)] => do
    return .binding .value (← named.toBinder?) (← params.toParams?) (← toNode? codes)
  | node .templateBinding _ [(_, named), (_, params), (_, codes)] => do
    return .binding .template (← named.toBinder?) (← params.toParams?) (← toNode? codes)
  | node .native _ [(_, leaf (.text tag)), (_, params)] =>
    params.toBinders?.map (.native tag)
  | node .binder place fields => (node .binder place fields).toBinder?.map .binder
  | node .operator place fields => (node .operator place fields).toOperator?.map .operator
  | node _ _ _ => none

/-- Read records as nodes. -/
def toNodes? : List Record → Option (List Node)
  | [] => some []
  | record :: rest => do return (← toNode? record) :: (← toNodes? rest)

/-- Read records as parameters, each a name with its value. -/
def toFunctionParams? : List Record → Option (List (Binder × Option Node))
  | [] => some []
  | sequence [b, leaf .none] :: rest => do
    return (← b.toBinder?, none) :: (← toFunctionParams? rest)
  | sequence [b, value] :: rest => do
    return (← b.toBinder?, some (← toNode? value)) :: (← toFunctionParams? rest)
  | _ => none

end

end Record

end BasicSyntax
