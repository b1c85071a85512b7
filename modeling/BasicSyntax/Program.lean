import BasicSyntax.Parse.Step
import BasicSyntax.SyntaxError

/-! # Programs — reading a text as a list of statements

    Every line of a program ends in a separator; behind the last one it may be missing and is
    supplied.  The first error in the text is the one that counts, whether it is a token out of
    place or a character with which no token begins.  The length of numbers is looked at last,
    in a text that has no other error.

    No text is refused for its depth.  A host that bounds how deep calls nest would have an error
    of its own for a text that is too deep for it; there is none here, because there is no such
    bound. -/

namespace BasicSyntax

/-- Why a text is no program. -/
inductive ReadError
  | syntaxError (error : SyntaxError)
  | longNumber (digits : Nat)
  deriving DecidableEq, Repr

namespace Program

/-- Whether a character ends a line of a program. -/
def isSeparator (c : Char) : Bool :=
  c == ';' || c == '\n'

/-- A text with the separator behind its last line. -/
def complete (text : List Char) : List Char :=
  match text.getLast? with
  | none => []
  | some c => if isSeparator c then text else text ++ ['\n']

/-- The error of a token out of place. -/
def refusalError (text : List Char) (refusal : Parse.Refusal) : SyntaxError :=
  ⟨.token refusal.token.text, refusal.token.pos, refusal.expected,
    excerptAt text refusal.token.offset⟩

/-- The error of a character with which no token begins. -/
def strayError (text : List Char) (stray : Stray) : SyntaxError :=
  ⟨.character stray.char, stray.pos, Terminal.order, excerptAt text stray.offset⟩

/-- The error of a text that ends too early: it is shown at the last token. -/
def endError (text : List Char) (tokens : List Token) (expected : List Terminal) : SyntaxError :=
  match tokens.getLast? with
  | some t => ⟨.endOfInput, t.pos, expected, excerptAt text t.offset⟩
  | none => ⟨.endOfInput, Position.start, expected, excerptAt text 0⟩

/-- The statements of a text whose last line is complete. -/
def statements (text : List Char) : Except SyntaxError (List Node) :=
  let cut := Tokens.ofText text
  match Parse.run .start cut.tokens with
  | .error refusal => .error (refusalError text refusal)
  | .ok reached =>
    match cut.stray with
    | some stray => .error (strayError text stray)
    | none =>
      match Parse.finish reached with
      | .ok stmts => .ok stmts
      | .error expected => .error (endError text cut.tokens expected)

/-- The digits of the first number that is too long to be read. -/
def longNumber? (tokens : List Token) : Option Nat :=
  (tokens.find? fun t => t.terminal = .number ∧ Text.digitLimit < t.text.length).map
    fun t => t.text.length

/-- Read a program. -/
def read (source : String) : Except ReadError (List Node) :=
  let text := complete source.toList
  match statements text with
  | .error e => .error (.syntaxError e)
  | .ok stmts =>
    match longNumber? (Tokens.ofText text).tokens with
    | some digits => .error (.longNumber digits)
    | none => .ok stmts

/-- Read a program and leave out what empty lines stand for. -/
def readLine (source : String) : Except ReadError (List Node) :=
  (read source).map fun stmts => stmts.filter fun n => !n matches .null

end Program

end BasicSyntax
