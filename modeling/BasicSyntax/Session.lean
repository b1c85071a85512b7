import BasicSyntax.Escape
import BasicSyntax.Program
import BasicSyntax.Render

/-! # Sessions — a conversation in lines

    The user is asked for a line, the line is read as a program, and the program is shown, or
    its error.  What is answered to a line depends on the line and the way of showing alone.
    The conversation ends with the input, at a line that says so, or at a fault that is not
    provided for.  A line may nest as deep as it likes: no depth is a fault. -/

namespace BasicSyntax.Session

/-- What is answered to a line. -/
inductive Answer
  | nothing
  | shown (text : String)
  | complaint (text : String)
  | leave
  | escape (why : Escape)
  deriving DecidableEq, Repr

/-- A line that was asked for: what reading it gave, if it was read, and the answer. -/
structure Exchange where
  result : Option (Except ReadError (List Node))
  answer : Answer

/-- What is said first. -/
def greeting : List String :=
  ["Basic front end. Each line is parsed and its tree echoed.", "Type 'exit' to leave."]

/-- What asks for a line. -/
def prompt : String := ">> "

/-- The answer to a line that was read. -/
def answerTo (mode : Mode) : Except ReadError (List Node) → Answer
  | .error (.syntaxError e) => .complaint ("PARSE ERROR: " ++ e.text)
  | .error (.longNumber digits) => .escape (.longNumber digits)
  | .ok [] => .nothing
  | .ok stmts =>
    match render mode stmts with
    | .ok text => .shown text
    | .error fault => .escape (.unprinted fault)

/-- Whether a line asks to leave. -/
def asksToLeave (line : String) : Bool :=
  line == "exit" || line == "quit"

/-- What happens to a line. -/
def exchange (mode : Mode) (line : String) : Exchange :=
  let text := String.ofList (Text.trim Text.isSpace line.toList)
  if text.isEmpty then ⟨none, .nothing⟩
  else if asksToLeave text then ⟨none, .leave⟩
  else
    let result := Program.readLine text
    ⟨some result, answerTo mode result⟩

/-- Whether a conversation ends with an answer. -/
def Answer.isLast : Answer → Bool
  | leave | escape _ => true
  | _ => false

/-- A conversation over lines, of which a missing one is the end of the input.  With the
    exchanges comes the number of lines that were not asked for. -/
def converse (mode : Mode) : List (Option String) → List Exchange × Nat
  | [] => ([⟨none, .leave⟩], 0)
  | none :: rest => ([⟨none, .leave⟩], rest.length)
  | some line :: rest =>
    let this := exchange mode line
    if this.answer.isLast then ([this], rest.length)
    else
      let (more, unread) := converse mode rest
      (this :: more, unread)

/-- What the host of a session is told to do. -/
inductive Event
  | emit (text : String)
  | complain (text : String)
  | ask (prompt : String)
  | stop (why : Escape)
  deriving DecidableEq, Repr

/-- What an answer makes the host do. -/
def Answer.events : Answer → List Event
  | nothing | leave => []
  | shown text => [.emit text]
  | complaint text => [.complain text]
  | escape why => [.stop why]

/-- What an exchange makes the host do. -/
def Exchange.events (x : Exchange) : List Event :=
  .ask prompt :: x.answer.events

/-- All that the host of a session is told, with the number of lines not asked for. -/
def run (mode : Mode) (lines : List (Option String)) : List Event × Nat :=
  let (exchanges, unread) := converse mode lines
  (greeting.map .emit ++ exchanges.flatMap Exchange.events, unread)

end BasicSyntax.Session
