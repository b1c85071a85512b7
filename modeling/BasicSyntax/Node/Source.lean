import BasicSyntax.Fold
import BasicSyntax.Record.Outline
import BasicSyntax.Text.Integer
import BasicSyntax.Text.Literal

/-! # Source form — a tree as the text of a program

    The text is laid out so that reading it gives the tree back: an operand stands in round
    brackets where the operators around it would otherwise regroup it, a condition always does
    unless it is a number or a text, and the statements between brackets have a line each, one
    indentation deeper than the brackets.

    Printing carries the level of indentation along.  It goes up on entering brackets and down
    on leaving them, also when printing gives up between them.

    It gives up at a node without a source form and at a number of too many digits, and for no
    other reason: however deep a tree is, it is printed.  A host that lets calls nest only so
    deep is not part of this library. -/

namespace BasicSyntax

/-- Why a tree has no source form. -/
inductive NoSource
  | kind (name : String)
  | boundParam (name : String)
  | appliedNonName
  deriving DecidableEq, Repr

/-- The complaint in words. -/
def NoSource.message : NoSource → String
  | .kind name => s!"{name} has no source form"
  | .boundParam name => s!"Parameter '{name}' is already bound and has no source form"
  | .appliedNonName => "Only a name can be applied to arguments in source form"

/-- Why a tree is not printed: it has no source form, or a number in it has too many digits to
    be written. -/
inductive PrintFault
  | noSource (why : NoSource)
  | longNumber
  deriving DecidableEq, Repr

/-- The complaint in words. -/
def PrintFault.message : PrintFault → String
  | noSource why => why.message
  | longNumber => Text.notWritableMessage

/-- A step of printing: from a level of indentation to a result and a level. -/
abbrev Printing := ExceptT PrintFault (StateM Nat)

namespace Printing

/-- Give up. -/
def refuse {α : Type} (why : PrintFault) : Printing α :=
  fun level => (.error why, level)

/-- Give up because there is no source form. -/
def noSource {α : Type} (why : NoSource) : Printing α :=
  refuse (.noSource why)

/-- Write a number. -/
def number (value : Int) : Printing String :=
  if Text.isWritable value then pure (toString value) else refuse .longNumber

/-- The start of a line at the present level. -/
def margin (indent : String) : Printing String :=
  fun level => (.ok (Record.repeated indent level), level)

/-- Print one level deeper and come back, also after giving up. -/
def deeper {α : Type} (step : Printing α) : Printing α :=
  fun level =>
    let (result, reached) := step (level + 1)
    (result, reached - 1)

/-- A step and what follows it: after giving up nothing follows. -/
theorem bind_run {α β : Type} (step : Printing α) (next : α → Printing β) (level : Nat) :
    (step >>= next) level = ExceptT.bindCont next (step level).1 (step level).2 := rfl

theorem deeper_run {α : Type} (step : Printing α) (level : Nat) :
    deeper step level = ((step (level + 1)).1, (step (level + 1)).2 - 1) := rfl

/-- A number is written if it has few enough digits. -/
theorem number_writable {value : Int} (h : Text.isWritable value = true) :
    number value = pure (toString value) :=
  if_pos h

end Printing

/-- A text in round brackets, if they are wanted. -/
def bracketed (wanted : Bool) (text : String) : String :=
  if wanted then "(" ++ text ++ ")" else text

/-- The brackets that enclose statements. -/
def Enclosure.opening : Enclosure → String
  | block => "\x7b"
  | scope => "["

/-- The brackets that close behind statements. -/
def Enclosure.closing : Enclosure → String
  | block => "\x7d"
  | scope => "]"

/-- The words that a binding begins with. -/
def BindingForm.keyword : BindingForm → String
  | value => "let"
  | template => "let macro"

namespace Node

/-- Whether a node is the statement of an empty line. -/
def isNull : Node → Bool
  | null => true
  | _ => false

/-- Whether an operand of two joined by an operator stands in brackets of its own. -/
def isFunction : Node → Bool
  | function _ _ _ => true
  | _ => false

/-- Whether an operand on the left of an operator would be regrouped without brackets. -/
def regroupsLeft (op : Operator) : Node → Bool
  | binary _ inner _ =>
    inner.symbol.priority < op.symbol.priority ||
      (inner.symbol.priority == op.symbol.priority && !op.symbol.leftAssoc)
  | _ => false

/-- Whether an operand on the right of an operator would be regrouped without brackets. -/
def regroupsRight (op : Operator) : Node → Bool
  | binary _ inner _ =>
    inner.symbol.priority < op.symbol.priority ||
      (inner.symbol.priority == op.symbol.priority && op.symbol.leftAssoc)
  | _ => false

/-- Whether a node may follow a minus without brackets. -/
def isPlainPrimary : Node → Bool
  | binder _ | number _ _ | string _ _ | application _ _ => true
  | _ => false

/-- Whether a node may be an argument without brackets. -/
def isPlainArgument : Node → Bool
  | binder _ | number _ _ | string _ _ | underline _ | enclosed _ _ => true
  | _ => false

/-- Whether a node may be a condition without brackets. -/
def isPlainCondition : Node → Bool
  | number _ _ | string _ _ => true
  | _ => false

/-- The names of parameters, none of which may be bound. -/
def paramNames : List (Binder × Option Node) → Except NoSource (List String)
  | [] => .ok []
  | (b, none) :: rest => (paramNames rest).map (b.text :: ·)
  | (b, some _) :: _ => .error (.boundParam b.text)

/-- A function with its body printed. -/
def functionSource (names : List String) (body : String) : String :=
  "fun " ++ " ".intercalate names ++ " -> " ++ body

/-- A binding with its codes printed. -/
def bindingSource (form : BindingForm) (named : Binder) (params : Option (List Binder))
    (codes : String) : String :=
  " ".intercalate (form.keyword :: named.text :: (params.getD []).map Binder.text) ++
    " = " ++ codes

/-- Statements with their lines printed, between brackets whose closing one stands at a
    margin. -/
def enclosedSource (form : Enclosure) (lines : List String) (margin : String) : String :=
  form.opening ++ "\n" ++ "\n".intercalate lines ++ "\n" ++ margin ++ form.closing

mutual

/-- Print a node. -/
def print (indent : String) : Node → Printing String
  | binder b => pure b.text
  | unit _ => .noSource (.kind "UnitLiteral")
  | number value _ => .number value
  | string literal _ => pure (Text.writeLiteral literal)
  | underline _ => pure "_"
  | function params body _ => do
    match paramNames params with
    | .error why => .noSource why
    | .ok names => return functionSource names (← print indent body)
  | template _ _ _ => .noSource (.kind "Macro")
  | operator op => pure op.symbol.text
  | negative primary => do
    return "-" ++ bracketed (!primary.isPlainPrimary) (← print indent primary)
  | binary left op right => do
    let leftText ← print indent left
    let rightText ← print indent right
    return bracketed (left.isFunction || left.regroupsLeft op) leftText ++ " " ++
      op.symbol.text ++ " " ++
      bracketed (right.isFunction || right.regroupsRight op) rightText
  | application (binder b) arguments => do
    return " ".intercalate (b.text :: (← printArguments indent arguments))
  | application _ _ => .noSource .appliedNonName
  | enclosed form stmts => do
    if stmts.all isNull then return form.opening ++ form.closing
    let lines ← Printing.deeper (printLines indent stmts)
    return enclosedSource form lines (← Printing.margin indent)
  | null => pure ""
  | conditional condition thenBlock elseBlock => do
    let conditionText ← print indent condition
    let thenText ← print indent thenBlock
    let elseText ← printElse indent elseBlock
    return "if " ++ bracketed (!condition.isPlainCondition) conditionText ++ " " ++ thenText ++
      elseText
  | loop condition body => do
    let conditionText ← print indent condition
    let bodyText ← print indent body
    return "while " ++ bracketed (!condition.isPlainCondition) conditionText ++ " " ++ bodyText
  | binding form named params codes => do
    return bindingSource form named params (← print indent codes)
  | native _ _ => .noSource (.kind "NativeStmt")
  | datum value => .noSource (.kind (Record.leaf value).kindName)
  | tuple _ => .noSource (.kind (Record.sequence []).kindName)

/-- Print the second branch of a choice, if there is one. -/
def printElse (indent : String) : Option Node → Printing String
  | none => pure ""
  | some n => do return " else " ++ (← print indent n)

/-- Print arguments, those in brackets that need them. -/
def printArguments (indent : String) : List Node → Printing (List String)
  | [] => pure []
  | argument :: rest => do
    let text ← print indent argument
    let texts ← printArguments indent rest
    return bracketed (!argument.isPlainArgument) text :: texts

/-- Print statements on a line each, leaving out empty ones. -/
def printLines (indent : String) : List Node → Printing (List String)
  | [] => pure []
  | null :: rest => printLines indent rest
  | stmt :: rest => do
    let margin ← Printing.margin indent
    let text ← print indent stmt
    let texts ← printLines indent rest
    return (margin ++ text) :: texts

end

/-- Brackets around statements that are not all empty stand on lines of their own. -/
theorem print_enclosed {indent : String} {form : Enclosure} {stmts : List Node}
    (h : ¬ stmts.all isNull = true) :
    print indent (enclosed form stmts) = do
      let lines ← Printing.deeper (printLines indent stmts)
      return enclosedSource form lines (← Printing.margin indent) := by
  rw [print, if_neg h]

/-- A statement that is not empty has a line. -/
theorem printLines_cons {indent : String} {stmt : Node} {rest : List Node}
    (h : stmt.isNull = false) :
    printLines indent (stmt :: rest) = do
      let margin ← Printing.margin indent
      let text ← print indent stmt
      let texts ← printLines indent rest
      return (margin ++ text) :: texts := by
  rw [printLines]
  rintro rfl
  exact Bool.noConfusion h

/-- Print the lines of a program, each ended by a newline. -/
def printProgram (indent : String) : List Node → Printing String
  | [] => pure ""
  | stmt :: rest => do
    let text ← print indent stmt
    return text ++ "\n" ++ (← printProgram indent rest)

/-- The indentation of source text where none is asked for. -/
def sourceIndent : String := "    "

/-- The source form of a node, from the margin. -/
def source (n : Node) : Except PrintFault String :=
  (print sourceIndent n 0).1

/-- The source form of a program. -/
def programSource (stmts : List Node) : Except PrintFault String :=
  (printProgram sourceIndent stmts 0).1

end Node

end BasicSyntax
