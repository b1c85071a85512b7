import BasicSyntax.Record

/-! # Agreement — equal but for positions

    Two records agree when their kinds, fields and plain values do; where they come from does
    not count.  Among plain values a truth value agrees with the number zero or one that
    stands for it. -/

namespace BasicSyntax

/-- A plain value in the form in which it is compared. -/
def Datum.compared : Datum → Datum
  | .truth value => .integer (if value then 1 else 0)
  | value => value

namespace Record

mutual

/-- Whether two records agree. -/
def agrees : Record → Record → Bool
  | leaf a, leaf b => a.compared == b.compared
  | sequence as, sequence bs => allAgree as bs
  | node kind _ fields, node kind' _ fields' => kind == kind' && fieldsAgree fields fields'
  | _, _ => false

/-- Whether the records of two lists agree one by one. -/
def allAgree : List Record → List Record → Bool
  | [], [] => true
  | a :: as, b :: bs => agrees a b && allAgree as bs
  | _, _ => false

/-- Whether fields agree one by one in name and value. -/
def fieldsAgree : List (String × Record) → List (String × Record) → Bool
  | [], [] => true
  | (name, a) :: as, (name', b) :: bs => name == name' && agrees a b && fieldsAgree as bs
  | _, _ => false

end

end Record

/-- Whether two nodes agree. -/
def Node.agrees (a b : Node) : Bool :=
  a.toRecord.agrees b.toRecord

/-- Whether two lists of nodes agree one by one. -/
def Node.allAgree (as bs : List Node) : Bool :=
  Record.allAgree (recordsOf as) (recordsOf bs)

end BasicSyntax
