import BasicSyntax.Node

/-! # Folding a run of operands — by the priority of the operators between them

    The run is read once, from left to right.  What cannot be joined yet is held back, each
    operand with the operator after it, the latest first; before an operator is held, every
    held operator that binds before it joins its two operands.

    What the operands are does not matter: the fold only ever joins two of them by an
    operator. -/

namespace BasicSyntax

/-- An operand with the operator before it. -/
abbrev Pair (α : Type) := Operator × α

/-- Whether the operator on the left joins its operands before the one on the right. -/
def Operator.bindsBefore (left right : Operator) : Bool :=
  right.symbol.priority < left.symbol.priority ||
    (left.symbol.priority == right.symbol.priority && right.symbol.leftAssoc)

namespace Fold

variable {α : Type}

/-- Operands held back, each with the operator after it, the latest first. -/
abbrev Held (α : Type) := List (α × Operator)

/-- Join held operands with the latest one, as long as their operator binds before the next. -/
def settle (join : α → Operator → α → α) (next : Operator) : Held α → α → Held α × α
  | [], latest => ([], latest)
  | (left, op) :: held, latest =>
    if op.bindsBefore next then settle join next held (join left op latest)
    else ((left, op) :: held, latest)

/-- Join all held operands with the latest one. -/
def drain (join : α → Operator → α → α) : Held α → α → α
  | [], latest => latest
  | (left, op) :: held, latest => drain join held (join left op latest)

/-- Read the rest of a run. -/
def run (join : α → Operator → α → α) (held : Held α) (latest : α) : List (Pair α) → α
  | [] => drain join held latest
  | (op, operand) :: rest =>
    let (held', latest') := settle join op held latest
    run join ((latest', op) :: held') operand rest

/-- Fold a run of at least one operand; the operator before the first does not count. -/
def pairs? (join : α → Operator → α → α) : List (Pair α) → Option α
  | [] => none
  | (_, first) :: rest => some (run join [] first rest)

end Fold

/-- Fold an operand and the pairs after it. -/
def resolveBy {α : Type} (join : α → Operator → α → α) (first : α) (rest : List (Pair α)) : α :=
  Fold.run join [] first rest

/-- Fold nodes. -/
def resolve (first : Node) (rest : List (Pair Node)) : Node :=
  resolveBy .binary first rest

/-- A part of a run that is empty or reaches beyond it. -/
structure RangeFault where
  start : Int
  stop : Int
  length : Nat
  deriving DecidableEq, Repr

/-- The complaint in words. -/
def RangeFault.message (fault : RangeFault) : String :=
  s!"Invalid operand range [{fault.start}, {fault.stop}) of {fault.length}"

/-- Fold the part of a run from one index up to, and without, another. -/
def foldRange {α : Type} (join : α → Operator → α → α) (pairs : List (Pair α))
    (start stop : Int) : Except RangeFault α :=
  let fault : RangeFault := ⟨start, stop, pairs.length⟩
  if 0 ≤ start ∧ start < stop ∧ stop ≤ pairs.length then
    match Fold.pairs? join ((pairs.take stop.toNat).drop start.toNat) with
    | some node => .ok node
    | none => .error fault
  else .error fault

end BasicSyntax
