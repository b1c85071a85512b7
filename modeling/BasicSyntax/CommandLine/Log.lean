import BasicSyntax.Escape
import BasicSyntax.Program

/-! # Log — what a run notes down about itself

    A record has a level, the part of the program it comes from, and a message.  Records below
    the level asked for are dropped. -/

namespace BasicSyntax.CommandLine

/-- The levels that records have. -/
inductive Level
  | debug
  | info
  deriving DecidableEq, Repr

namespace Level

/-- The name of a level. -/
def name : Level → String
  | debug => "DEBUG"
  | info => "INFO"

/-- The weight of a level. -/
def weight : Level → Nat
  | debug => 10
  | info => 20

end Level

/-- Something noted down. -/
structure LogRecord where
  level : Level
  part : String
  message : String
  deriving DecidableEq, Repr

/-- A record as a line, with the time it was made. -/
def LogRecord.line (time : String) (r : LogRecord) : String :=
  s!"{time} {r.level.name} {r.part}: {r.message}\n"

/-- The least weight that records must have, by the name of the level asked for. -/
def weights : List (String × Nat) :=
  [("CRITICAL", 50), ("FATAL", 50), ("ERROR", 40), ("WARNING", 30), ("WARN", 30), ("INFO", 20),
    ("DEBUG", 10), ("NOTSET", 0)]

/-- A character in upper case, as far as level names need it: two letters that are no capital's
    usual small letter have `I` and `S` for their capitals, and two joined ones have `ST`. -/
def capitals (c : Char) : List Char :=
  if c == 'ı' then ['I']
  else if c == 'ſ' then ['S']
  else if c == 'ﬅ' || c == 'ﬆ' then ['S', 'T']
  else [c.toUpper]

/-- Names of the log that are no levels: the layout of records, and the styles of layouts. -/
def otherNames : List (String × LevelFault) :=
  [("BASIC_FORMAT", .unknown "%(levelname)s:%(name)s:%(message)s"), ("_STYLES", .styles)]

/-- The least weight that records must have.  A name that is no level counts as a warning's,
    except that the log refuses to take its other names for levels. -/
def threshold (level : String) : Except LevelFault Nat :=
  let name := String.ofList (level.toList.flatMap capitals)
  match otherNames.lookup name with
  | some fault => .error fault
  | none => .ok ((weights.lookup name).getD 30)

/-- The part of the program that reads programs. -/
def readerPart : String := "basic_lang.parser"

/-- The part of the program that runs scripts. -/
def runPart : String := "basic"

/-- Noted before the first program is read. -/
def tablesRecord : LogRecord :=
  ⟨.debug, readerPart, "Building LALR tables for the program grammar"⟩

/-- The greatest limit on nested calls that a host can be asked for. -/
def greatestLimit : Int := 2147483647

/-- Noted after a program is read: where it failed, or that the limit on nested calls is beyond
    what a host can be asked for. -/
def readRecords (limit : Int) : Except ReadError (List Node) → List LogRecord
  | .error (.syntaxError e) =>
    [⟨.debug, readerPart, s!"Parse failed at {e.pos.line}:{e.pos.column} ({e.cause.message})"⟩]
  | _ =>
    if greatestLimit < limit then
      [⟨.debug, readerPart, s!"Could not raise recursion limit to {limit}"⟩]
    else []

end BasicSyntax.CommandLine
