import BasicSyntax.CommandLine.Run
import Std.Time.Format

/-! # Main — the program on a real console

    The only module that reads and writes.  It decides nothing: a run is planned, its files are
    opened or its lines asked for, and its pieces are written. -/

namespace BasicSyntax.Main

open CommandLine

/-- The time of a log record. -/
def now : IO String := do
  let time ← Std.Time.PlainDateTime.now
  return time.format "uuuu-MM-dd HH:mm:ss,SSS"

/-- Write a piece. -/
def write : Piece → IO Unit
  | .out text => do
    IO.print text
    (← IO.getStdout).flush
  | .err text => IO.eprint text
  | .log r => do IO.eprint (r.line (← now))

/-- The exit code of an ending. -/
def finish : Ending → IO UInt32
  | .returned code | .left code => return UInt32.ofNat code
  | .escaped why => do
    IO.eprintln why.message
    return 1

/-- Open a file. -/
def openFile (path : String) : IO (Except OpenFault (List UInt8)) := do
  let file := (← IO.currentDir) / path
  try
    if ← file.isDir then return .error .isFolder
    return .ok (← IO.FS.readBinFile file).toList
  catch
    | .noFileOrDirectory .. => return .error .missing
    | .permissionDenied .. => return .error .denied
    | .inappropriateType .. => return .error .notFolder
    | _ => return .error .longName

/-- Ask for lines until the session ends. -/
partial def converse (mode : Mode) (least : Nat) (limit : Int) (first : Bool) : IO Ending := do
  write (.out Session.prompt)
  let line ← (← IO.getStdin).getLine
  if line.isEmpty then return .returned 0
  let x := Session.exchange mode line
  for piece in exchangePieces least limit first x do
    write piece
  match x.answer with
  | .leave => return .returned 0
  | .escape why => return .escaped why
  | _ => converse mode least limit (first && x.result.isNone)

/-- Run with the arguments and surroundings of the process. -/
def run (arguments : List String) : IO UInt32 := do
  let surroundings : Surroundings :=
    ⟨← IO.getEnv "BASIC_LOG_LEVEL", ← IO.getEnv "BASIC_RECURSION_LIMIT"⟩
  let working := (← IO.currentDir).toString
  match plan arguments surroundings working with
  | .done outcome =>
    for piece in outcome.pieces do
      write piece
    finish outcome.ending
  | .session mode least limit =>
    for piece in greetingPieces do
      write piece
    finish (← converse mode least limit true)
  | .script mode least limit script path =>
    let outcome := runScript mode least limit script path (← openFile path)
    for piece in outcome.pieces do
      write piece
    finish outcome.ending

end BasicSyntax.Main

/-- The program. -/
def main (arguments : List String) : IO UInt32 :=
  BasicSyntax.Main.run arguments
