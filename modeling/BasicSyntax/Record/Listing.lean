import BasicSyntax.Record
import BasicSyntax.Text.Quoted

/-! # Listings — a record on one line, without positions

    A record is its kind with its fields in round brackets, each as name and value; a sequence
    stands in round brackets too, and one of a single item ends in a comma.

    Listings, and outlines with them, are of records whose integers can be written
    (`Text.isWritable`), which those of every program are that is read.  An integer of more digits
    is shown like any other here, and of its complaint nothing is said. -/

namespace BasicSyntax

/-- A plain value as listings show it. -/
def Datum.listing : Datum → String
  | .none => "None"
  | .truth value => if value then "True" else "False"
  | .integer value => toString value
  | .text value => Text.quoted value

namespace Record

/-- A sequence of shown items. -/
def sequenceListing : List String → String
  | [item] => s!"({item},)"
  | items => "(" ++ ", ".intercalate items ++ ")"

mutual

/-- A record on one line. -/
def listing : Record → String
  | leaf value => value.listing
  | sequence items => sequenceListing (listings items)
  | node kind _ fields => kind.name ++ "(" ++ ", ".intercalate (fieldListings fields) ++ ")"

/-- Each of some records on one line. -/
def listings : List Record → List String
  | [] => []
  | item :: rest => listing item :: listings rest

/-- Each field as name and value. -/
def fieldListings : List (String × Record) → List String
  | [] => []
  | (name, value) :: rest => (name ++ "=" ++ listing value) :: fieldListings rest

end

end Record

/-- A record as part of a text: a text is itself, everything else its listing. -/
def Record.shown : Record → String
  | .leaf (.text text) => text
  | record => record.listing

/-- The operator that a record is written as. -/
def Record.toSymbol (record : Record) : Except String Symbol :=
  match record with
  | .leaf (.text text) =>
    match Symbol.ofText? text with
    | some symbol => .ok symbol
    | none => .error (unknownOperatorMessage text)
  | _ => .error (unknownOperatorMessage record.shown)

/-- A node on one line. -/
def Node.listing (n : Node) : String :=
  n.toRecord.listing

end BasicSyntax
