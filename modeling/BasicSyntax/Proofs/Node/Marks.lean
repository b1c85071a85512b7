import BasicSyntax.Node
import BasicSyntax.Proofs.Fold
import BasicSyntax.Proofs.Token.Place
import BasicSyntax.Text.Integer

/-! # Marks — what in a tree stands for a token of its own

    Names, numbers, texts, underlines, functions and operators know their point in the text.
    `Node.marks` lists them with their points, in the order of the source: a function before its
    parameters and its body, the left operand before the operator and the operator before the
    right operand, and parts otherwise in the order in which they are written.  The list is
    defined for every tree.

    What a mark means at a point is said about the text alone: `Mark.StandsIn m text p` says that
    the text at `p` begins with a token that writes the mark, as long as such a token can be. -/

namespace BasicSyntax

open Text

/-- What stands for a token. -/
inductive Mark
  | name (text : String)
  | number (value : Int)
  | string (literal : String)
  | underline
  | function
  | operator (symbol : Symbol)
  deriving DecidableEq, Repr

namespace Mark

/-- The sort of token that a mark stands for. -/
def terminal : Mark → Terminal
  | name _ => .identifier
  | number _ => .number
  | string _ => .string
  | underline => .underline
  | function => .funWord
  | operator .minus => .minus
  | operator _ => .operator

/-- The value of a run of ASCII digits. -/
def digitsValue (digits : List Char) : Nat :=
  ofDigits (digits.map fun c => c.toNat - '0'.toNat)

/-- A text is one way to write what a mark stands for. -/
def WrittenAs (m : Mark) (w : List Char) : Prop :=
  match m with
  | name text => IsName w ∧ w = text.toList
  | number value => (w ≠ [] ∧ ∀ c ∈ w, c.isDigit = true) ∧ value = digitsValue w
  | string literal => Terminal.string.Writes w ∧ literal = readLiteral (String.ofList w)
  | underline => w = ['_']
  | function => w = ['f', 'u', 'n']
  | operator symbol => w = symbol.text.toList ∧ symbol ≠ .dummy

/-- A text, read from a point on, begins with a token that writes the mark, and the token goes
    on no further. -/
def StandsIn (m : Mark) (text : List Char) (p : Position) : Prop :=
  ∃ above w below : List Char, text = above ++ (w ++ below) ∧ p = point above ∧
    m.WrittenAs w ∧ m.terminal.Ends w below

end Mark

/-- A mark and its point, if that is known. -/
abbrev Placed := Mark × Option Position

/-- A name as a mark. -/
def Binder.mark (b : Binder) : Placed := (.name b.text, b.pos)

/-- An operator as a mark. -/
def Operator.mark (op : Operator) : Placed := (.operator op.symbol, op.pos)

mutual

/-- The marks of a node, in the order of the source. -/
def Node.marks : Node → List Placed
  | .binder b => [b.mark]
  | .unit _ => []
  | .number value pos => [(.number value, pos)]
  | .string literal pos => [(.string literal, pos)]
  | .underline pos => [(.underline, pos)]
  | .function params body pos => (.function, pos) :: (paramMarks params ++ body.marks)
  | .template params body _ => params.map Binder.mark ++ body.marks
  | .operator op => [op.mark]
  | .negative primary => primary.marks
  | .binary left op right => left.marks ++ op.mark :: right.marks
  | .application child arguments => child.marks ++ marksOf arguments
  | .enclosed _ stmts => marksOf stmts
  | .null => []
  | .conditional condition thenBlock elseBlock =>
    condition.marks ++ (thenBlock.marks ++ optionMarks elseBlock)
  | .loop condition body => condition.marks ++ body.marks
  | .binding _ named params codes =>
    named.mark :: ((params.getD []).map Binder.mark ++ codes.marks)
  | .native _ params => params.map Binder.mark
  | .datum _ => []
  | .tuple items => marksOf items

/-- The marks of a node that may be missing. -/
def optionMarks : Option Node → List Placed
  | none => []
  | some n => n.marks

/-- The marks of nodes. -/
def marksOf : List Node → List Placed
  | [] => []
  | n :: rest => n.marks ++ marksOf rest

/-- The marks of parameters, each with its value. -/
def paramMarks : List (Binder × Option Node) → List Placed
  | [] => []
  | (b, value) :: rest => b.mark :: (optionMarks value ++ paramMarks rest)

end

/-- Parameters without values have the marks of their names. -/
theorem paramMarks_names (bs : List Binder) :
    paramMarks (bs.map fun b => (b, none)) = bs.map Binder.mark := by
  induction bs with
  | nil => rfl
  | cons b bs ih => exact congrArg (b.mark :: ·) ih

/-- Folding keeps the order of a run. -/
theorem resolve_marks (first : Node) (rest : List (Pair Node)) :
    (resolve first rest).marks =
      first.marks ++ Fold.pairRow Node.marks Operator.mark rest :=
  Fold.resolveBy_row (fun _ _ _ => by rw [Node.marks]) first rest

/-! ## Written marks -/

namespace Mark

/-- Nothing that a mark is written as ends in a separator. -/
theorem WrittenAs.unseparated {m : Mark} {w : List Char} (h : m.WrittenAs w) :
    ∀ c ∈ w.getLast?, Program.isSeparator c = false := by
  have hword : ∀ {c : Char}, isWordChar c = true → Program.isSeparator c = false := by
    intro c hc
    refine Bool.eq_false_iff.mpr fun hsep => ?_
    rw [(class_separator hsep).1] at hc
    exact Bool.noConfusion hc
  intro c hc
  cases m with
  | name text => exact hword (h.1.word c (List.mem_of_getLast? hc))
  | number value => exact hword (isWordChar_digit (h.1.2 c (List.mem_of_getLast? hc)))
  | string literal =>
      obtain ⟨body, rfl, -⟩ := h.1
      rw [← List.cons_append, List.getLast?_concat] at hc
      obtain rfl := Option.some.inj hc
      rfl
  | underline =>
      rw [show w = ['_'] from h] at hc
      obtain rfl := Option.some.inj hc
      rfl
  | function =>
      rw [show w = ['f', 'u', 'n'] from h] at hc
      obtain rfl := Option.some.inj hc
      rfl
  | operator symbol =>
      have hall : ∀ s ∈ Symbol.all,
          s.text.toList.getLast?.map Program.isSeparator = some false := by decide
      have hmem : symbol ∈ Symbol.all := by cases symbol <;> decide
      have hlast := hall symbol hmem
      rw [← h.1, Option.mem_def.mp hc] at hlast
      exact Option.some.inj hlast

end Mark

end BasicSyntax
