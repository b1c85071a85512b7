import BasicSyntax.Record.Listing
import BasicSyntax.Text.Blank

/-! # Outlines — a record on many lines, with positions

    The line of a record shows its kind, its fields that hold plain values, and its position;
    the other fields follow, each one level deeper and labelled with its name.  A sequence has
    a line of its own and its items one level deeper, unless it is empty. -/

namespace BasicSyntax.Record

/-- A text repeated. -/
def repeated (text : String) : Nat → String
  | 0 => ""
  | n + 1 => repeated text n ++ text

/-- The fields that hold plain values, as the line of their record shows them. -/
def scalarTexts : List (String × Record) → String
  | [] => ""
  | (name, leaf value) :: rest => " " ++ name ++ "=" ++ value.listing ++ scalarTexts rest
  | _ :: rest => scalarTexts rest

/-- The place as the line of its record shows it. -/
def placeText : Option Place → String
  | none => ""
  | some place => " @" ++ place.text

/-- The line that a sequence begins with: its label without space at the end, or a dash. -/
def sequenceHead (indent label : String) (depth : Nat) : String :=
  if label == "" then repeated indent depth ++ "-"
  else String.ofList (Text.trimEnd Text.isSpace (repeated indent depth ++ label).toList)

mutual

/-- The lines of a record at a depth, the first of them labelled. -/
def outline (indent : String) (depth : Nat) (label : String) : Record → List String
  | leaf value => [repeated indent depth ++ label ++ value.listing]
  | sequence [] => [repeated indent depth ++ label ++ "[]"]
  | sequence (item :: rest) =>
    sequenceHead indent label depth :: outlineItems indent (depth + 1) (item :: rest)
  | node kind place fields =>
    (repeated indent depth ++ label ++ kind.name ++ scalarTexts fields ++ placeText place) ::
      outlineFields indent (depth + 1) fields

/-- The lines of items, without labels. -/
def outlineItems (indent : String) (depth : Nat) : List Record → List String
  | [] => []
  | item :: rest => outline indent depth "" item ++ outlineItems indent depth rest

/-- The lines of the fields that do not hold plain values, labelled with their names. -/
def outlineFields (indent : String) (depth : Nat) : List (String × Record) → List String
  | [] => []
  | (_, leaf _) :: rest => outlineFields indent depth rest
  | (name, value) :: rest =>
    outline indent depth (name ++ ": ") value ++ outlineFields indent depth rest

end

/-- A record on many lines. -/
def outlineText (indent : String) (record : Record) : String :=
  "\n".intercalate (record.outline indent 0 "")

/-- The indentation of an outline where none is asked for. -/
def outlineIndent : String := "  "

end BasicSyntax.Record

namespace BasicSyntax

/-- A node on many lines. -/
def Node.outline (n : Node) : String :=
  n.toRecord.outlineText Record.outlineIndent

end BasicSyntax
