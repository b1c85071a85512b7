import BasicSyntax.CommandLine.FileTree
import BasicSyntax.CommandLine.Log
import BasicSyntax.CommandLine.Options
import BasicSyntax.Session
import BasicSyntax.Text.Lines
import BasicSyntax.Text.Quoted

/-! # Runs — from arguments to what is written

    A run with a script reads the script and shows it; a run without one holds a session.  What
    a run writes is a list of pieces in their order, each for the output, for the error output,
    or for the log, which goes to the error output too.

    The surroundings may ask the host for a limit on how deep calls nest.  Here calls nest without
    a limit, so it keeps nothing from being read or shown, however deep: it only has to be an
    integer, and the log has a record of one that no host can set. -/

namespace BasicSyntax.CommandLine

/-- A piece of what a run writes. -/
inductive Piece
  | out (text : String)
  | err (text : String)
  | log (r : LogRecord)
  deriving DecidableEq, Repr

/-- How a run ends: it returns, leaves at once, or stops at a fault. -/
inductive Ending
  | returned (code : Nat)
  | left (code : Nat)
  | escaped (why : Escape)
  deriving DecidableEq, Repr

/-- What a run writes and how it ends. -/
structure Outcome where
  pieces : List Piece
  ending : Ending
  deriving DecidableEq, Repr

/-- What the surroundings of a run set: the level of the log, and the limit on nested calls that
    the host is asked for. -/
structure Surroundings where
  logLevel : Option String
  limit : Option String
  deriving DecidableEq, Repr

/-- The limit that is asked for where the surroundings set none. -/
def usualLimit : Int := 5000

/-- The limit on nested calls that the host is asked for. -/
def callLimit : Option String → Except Text.IntegerFault Int
  | none => .ok usualLimit
  | some text => Text.readInteger text

/-- Log records of a weight at least the given one. -/
def logged (least : Nat) (records : List LogRecord) : List Piece :=
  (records.filter fun r => least ≤ r.level.weight).map .log

/-- The level of the log that options and surroundings ask for. -/
def Options.logLevel (options : Options) (surroundings : Surroundings) : String :=
  if options.verbose then "DEBUG" else surroundings.logLevel.getD "WARNING"

/-! ## Sessions on a console -/

/-- What an exchange writes after the prompt.  The first program that is read is preceded in
    the log by a record of its own. -/
def exchangePieces (least : Nat) (limit : Int) (first : Bool) (x : Session.Exchange) :
    List Piece :=
  let records := match x.result with
    | none => []
    | some result => (if first then [tablesRecord] else []) ++ readRecords limit result
  logged least records ++
    match x.answer with
    | .shown text => [.out (text ++ "\n")]
    | .complaint text => [.err (text ++ "\n")]
    | _ => []

/-- What exchanges write, prompts included. -/
def sessionPieces (least : Nat) (limit : Int) (first : Bool) : List Session.Exchange → List Piece
  | [] => []
  | x :: rest =>
    .out Session.prompt :: exchangePieces least limit first x ++
      sessionPieces least limit (first && x.result.isNone) rest

/-- How a session on a console ends. -/
def sessionEnding (exchanges : List Session.Exchange) : Ending :=
  match exchanges.getLast?.map Session.Exchange.answer with
  | some (.escape why) => .escaped why
  | _ => .returned 0

/-- What a session on a console says first. -/
def greetingPieces : List Piece :=
  Session.greeting.map fun line => .out (line ++ "\n")

/-- A session over the lines of an input. -/
def runSession (mode : Mode) (least : Nat) (limit : Int) (input : String) : Outcome :=
  let lines := (Text.readLines input.toList).map fun line => some (String.ofList line)
  let (exchanges, _) := Session.converse mode lines
  ⟨greetingPieces ++ sessionPieces least limit true exchanges, sessionEnding exchanges⟩

/-! ## Scripts -/

/-- What is said of a script that cannot be opened. -/
def unreadable (script path : String) (fault : OpenFault) : String :=
  s!"Cannot read {script}: {fault.message}: {Text.quoted path}\n"

/-- What is said of a script that is no program. -/
def rejected (script : String) (e : SyntaxError) : List Piece :=
  [.err (s!"PARSE ERROR in {script}\n" ++ e.text ++ "\n"),
    .err (String.ofList (Text.trimEnd (· == '\n') e.context.toList) ++ "\n")]

/-- What is written of a script that is a program. -/
def accepted (mode : Mode) (least : Nat) (stmts : List Node) : Outcome :=
  let counted := logged least
    [⟨.info, runPart, s!"Parsed {stmts.length} top-level statements"⟩]
  if stmts.isEmpty then ⟨counted, .returned 0⟩
  else
    match render mode stmts with
    | .ok text => ⟨counted ++ [.out (text ++ "\n")], .returned 0⟩
    | .error fault => ⟨counted, .escaped (.unprinted fault)⟩

/-- Read the text of a script and show it. -/
def runText (mode : Mode) (least : Nat) (limit : Int) (script text : String) : Outcome :=
  let result := Program.read text
  let records := logged least (tablesRecord :: readRecords limit result)
  match result with
  | .error (.syntaxError e) => ⟨records ++ rejected script e, .returned 1⟩
  | .error (.longNumber digits) => ⟨records, .escaped (.longNumber digits)⟩
  | .ok stmts =>
    let shown := accepted mode least stmts
    ⟨records ++ shown.pieces, shown.ending⟩

/-- Run a script whose file has been opened, or could not be. -/
def runOpened (mode : Mode) (least : Nat) (limit : Option String) (script path : String) :
    Except OpenFault (List UInt8) → Outcome
  | .error fault => ⟨[.err (unreadable script path fault)], .returned 1⟩
  | .ok bytes =>
    match Text.decodeUtf8 bytes with
    | .error fault => ⟨[], .escaped (.badEncoding fault)⟩
    | .ok text =>
      match callLimit limit with
      | .error fault => ⟨[], .escaped (.badLimit fault)⟩
      | .ok limit =>
        runText mode least limit script (String.ofList (Text.unifyNewlines text))

/-- Run a script by its whole path. -/
def runScript (mode : Mode) (least : Nat) (limit : Option String) (script path : String)
    (opened : Except OpenFault (List UInt8)) : Outcome :=
  let begun := logged least [⟨.info, runPart, "Parsing " ++ path⟩]
  if path.toList.contains '\x00' then ⟨begun, .escaped .badPath⟩
  else
    let outcome := runOpened mode least limit script path opened
    ⟨begun ++ outcome.pieces, outcome.ending⟩

/-! ## Runs -/

/-- What arguments lead to: an outcome at once, a session, or a script to be opened. -/
inductive Plan
  | done (outcome : Outcome)
  | session (mode : Mode) (least : Nat) (limit : Int)
  | script (mode : Mode) (least : Nat) (limit : Option String) (script path : String)

/-- Plan a run in a working folder. -/
def plan (arguments : List String) (surroundings : Surroundings) (working : String) : Plan :=
  match readArguments arguments with
  | .error fault => .done ⟨[.err (complaint fault)], .left 2⟩
  | .ok .help => .done ⟨[.out helpText], .left 0⟩
  | .ok (.run options) =>
    match threshold (options.logLevel surroundings) with
    | .error fault => .done ⟨[], .escaped (.badLevel fault)⟩
    | .ok least =>
      let script := options.script.getD ""
      if script.isEmpty then
        match callLimit surroundings.limit with
        | .error fault => .done ⟨[], .escaped (.badLimit fault)⟩
        | .ok limit => .session options.showAs least limit
      else
        .script options.showAs least surroundings.limit script (wholePath working script)

/-- Run in a working folder, with files and folders held in memory. -/
def run (arguments : List String) (surroundings : Surroundings) (working : String)
    (tree : FileTree) (input : String) : Outcome :=
  match plan arguments surroundings working with
  | .done outcome => outcome
  | .session mode least limit => runSession mode least limit input
  | .script mode least limit script path =>
    runScript mode least limit script path (tree.open? path)

/-- What a run writes to the output. -/
def Outcome.output (outcome : Outcome) : String :=
  String.join (outcome.pieces.map fun
    | .out text => text
    | _ => "")

/-- What a run writes to the error output, with one time for all records of the log. -/
def Outcome.errors (time : String) (outcome : Outcome) : String :=
  String.join (outcome.pieces.map fun
    | .out _ => ""
    | .err text => text
    | .log r => r.line time)

end BasicSyntax.CommandLine
