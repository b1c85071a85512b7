import BasicSyntax.Render
import BasicSyntax.Text.DecimalDigit
import BasicSyntax.Text.Quoted

/-! # Options — what the arguments of a run ask for

    Flags may stand anywhere before `--`, which makes all behind it plain.  A long flag may be
    shortened as long as it stays the only one; short flags may be written together.  The first
    plain argument is the script.  Flags are looked at in their order, and the first that is
    wrong counts; arguments left over count last. -/

namespace BasicSyntax.CommandLine

/-- The flags. -/
inductive Flag
  | help
  | outline
  | source
  | verbose
  deriving DecidableEq, Repr

/-- How flags are written. -/
def spellings : List (String × Flag) :=
  [("-h", .help), ("--help", .help), ("--dump", .outline), ("--format", .source),
    ("-v", .verbose), ("--verbose", .verbose)]

/-- The flag that is written so. -/
def flag? (text : String) : Option Flag :=
  spellings.lookup text

/-- A flag in all its spellings. -/
def Flag.name (flag : Flag) : String :=
  "/".intercalate ((spellings.filter fun entry => entry.2 == flag).map Prod.fst)

/-- What is wrong with arguments. -/
inductive UsageFault
  | ambiguous (argument : String) (candidates : List String)
  | ignoredValue (flag : Flag) (value : String)
  | notAllowed (flag other : Flag)
  | unrecognized (arguments : List String)
  deriving DecidableEq, Repr

/-- What is wrong, in words. -/
def UsageFault.message : UsageFault → String
  | ambiguous argument candidates =>
    s!"ambiguous option: {argument} could match " ++ ", ".intercalate candidates
  | ignoredValue flag value =>
    s!"argument {flag.name}: ignored explicit argument {Text.quoted value}"
  | notAllowed flag other => s!"argument {flag.name}: not allowed with argument {other.name}"
  | unrecognized arguments => "unrecognized arguments: " ++ " ".intercalate arguments

/-- What an argument is by its looks. -/
inductive Look
  | plain
  /-- A flag as it is written, with what is attached to it. -/
  | flag (flag : Flag) (spelling : String) (value : Option (List Char))
  | unknown
  deriving DecidableEq, Repr

/-- Whether characters are a number without sign: digits, or a point with digits behind it. -/
def isPlainNumber (text : List Char) : Bool :=
  match text.dropWhile Text.isDecimalDigit with
  | [] => !text.isEmpty
  | '.' :: fraction => !fraction.isEmpty && fraction.all Text.isDecimalDigit
  | _ => false

/-- Whether an argument is a negative number, perhaps with a newline behind it. -/
def isNegativeNumber : List Char → Bool
  | '-' :: rest =>
    isPlainNumber rest || (rest.getLast? == some '\n' && isPlainNumber rest.dropLast)
  | _ => false

/-- Cut an argument at its first equals sign. -/
def cutAtEquals (text : List Char) : String × Option (List Char) :=
  match text.span (· != '=') with
  | (front, []) => (String.ofList front, none)
  | (front, _ :: value) => (String.ofList front, some value)

/-- The flags that an argument may be short for, with what is attached to each. -/
def candidates (text : List Char) : List (Flag × String × Option (List Char)) :=
  match text with
  | '-' :: '-' :: _ =>
    let (front, value) := cutAtEquals text
    (spellings.filter fun entry => front.toList.isPrefixOf entry.1.toList).map
      fun entry => (entry.2, entry.1, value)
  | '-' :: c :: attached =>
    spellings.filterMap fun entry =>
      if entry.1.toList == ['-', c] then some (entry.2, entry.1, some attached)
      else if text.isPrefixOf entry.1.toList then some (entry.2, entry.1, none)
      else none
  | _ => []

/-- What an argument is that begins with a dash and is no flag as it stands. -/
def lookOfDashed (argument : String) : Except UsageFault Look :=
  let text := argument.toList
  match cutAtEquals text with
  | (front, some value) =>
    match flag? front with
    | some flag => .ok (.flag flag front (some value))
    | none => lookOfShort text
  | _ => lookOfShort text
where
  /-- What an argument is that is no flag up to an equals sign either. -/
  lookOfShort (text : List Char) : Except UsageFault Look :=
    match candidates text with
    | [] => .ok (if isNegativeNumber text || text.contains ' ' then .plain else .unknown)
    | [(flag, spelling, value)] => .ok (.flag flag spelling value)
    | many => .error (.ambiguous (String.ofList text) (many.map fun entry => entry.2.1))

/-- What an argument is by its looks. -/
def look (argument : String) : Except UsageFault Look :=
  match argument.toList with
  | '-' :: _ :: _ =>
    match flag? argument with
    | some flag => .ok (.flag flag argument none)
    | none => lookOfDashed argument
  | _ => .ok .plain

/-- The looks of the arguments before `--`, if it stands among them, and the arguments behind
    it. -/
def looks : List String → Except UsageFault (List (String × Look) × Option (List String))
  | [] => .ok ([], none)
  | argument :: rest =>
    if argument == "--" then .ok ([], some rest)
    else do
      let first ← look argument
      let (more, behind) ← looks rest
      return ((argument, first) :: more, behind)

/-- The flags written together in one argument. -/
def together (flag : Flag) : List Char → Except UsageFault (List Flag)
  | [] => .ok [flag]
  | c :: rest =>
    match flag? (String.ofList ['-', c]) with
    | some next => (together next rest).map (flag :: ·)
    | none => .error (.ignoredValue flag (String.ofList (c :: rest)))

/-- The flags of an argument.  Only a short flag may have others attached. -/
def flagsOf (flag : Flag) (spelling : String) : Option (List Char) → Except UsageFault (List Flag)
  | none => .ok [flag]
  | some value =>
    if "--".toList.isPrefixOf spelling.toList || value.isEmpty then
      .error (.ignoredValue flag (String.ofList value))
    else together flag value

/-- What a run is asked to do. -/
structure Options where
  script : Option String
  mode : Option Flag
  verbose : Bool
  deriving DecidableEq, Repr

/-- How the arguments looked at so far are understood: the options, whether a script has been
    given, whether it was the last argument, and what is left over, the last first. -/
structure Understood where
  options : Options
  scriptGiven : Bool
  behindScript : Bool
  leftOver : List String

/-- The outcome of reading arguments. -/
inductive Request
  | help
  | run (options : Options)
  deriving DecidableEq, Repr

/-- Obey flags; `none` when help is asked for. -/
def obey (options : Options) : List Flag → Except UsageFault (Option Options)
  | [] => .ok (some options)
  | .help :: _ => .ok none
  | .verbose :: rest =>
    obey ⟨options.script, options.mode, true⟩ rest
  | flag :: rest =>
    match options.mode with
    | some other =>
      if other = flag then obey options rest else .error (.notAllowed flag other)
    | none => obey ⟨options.script, some flag, options.verbose⟩ rest

/-- Understand arguments in their order; `none` when help is asked for. -/
def understand (u : Understood) : List (String × Look) → Except UsageFault (Option Understood)
  | [] => .ok (some u)
  | (argument, .plain) :: rest =>
    if u.scriptGiven then
      understand ⟨u.options, true, false, argument :: u.leftOver⟩ rest
    else
      let options : Options := ⟨some argument, u.options.mode, u.options.verbose⟩
      understand ⟨options, true, true, u.leftOver⟩ rest
  | (argument, .unknown) :: rest =>
    understand ⟨u.options, u.scriptGiven, false, argument :: u.leftOver⟩ rest
  | (_, .flag flag spelling value) :: rest => do
    let flags ← flagsOf flag spelling value
    match ← obey u.options flags with
    | none => return none
    | some options => understand ⟨options, u.scriptGiven, false, u.leftOver⟩ rest

/-- Understand what stands behind `--`.  The mark itself is left over, unless it stands before
    the script or right behind it. -/
def understandBehind (u : Understood) (behind : List String) : Options × List String :=
  if u.scriptGiven then
    (u.options, u.leftOver.reverse ++ if u.behindScript then behind else "--" :: behind)
  else
    match behind with
    | [] => (u.options, u.leftOver.reverse)
    | script :: rest =>
      (⟨some script, u.options.mode, u.options.verbose⟩, u.leftOver.reverse ++ rest)

/-- Read arguments. -/
def readArguments (arguments : List String) : Except UsageFault Request := do
  let (seen, behind) ← looks arguments
  match ← understand ⟨⟨none, none, false⟩, false, false, []⟩ seen with
  | none => return .help
  | some u =>
    let (options, leftOver) := match behind with
      | some behind => understandBehind u behind
      | none => (u.options, u.leftOver.reverse)
    if leftOver.isEmpty then return .run options
    else throw (.unrecognized leftOver)

/-- The way to show a program that a flag asks for. -/
def Options.showAs (options : Options) : Mode :=
  match options.mode with
  | some .outline => .outline
  | some .source => .source
  | _ => .listing

/-- The name of the program. -/
def programName : String := "basic.py"

/-- How a run is written. -/
def usage : String :=
  s!"usage: {programName} [-h] [--dump | --format] [-v] [script]\n"

/-- What help says. -/
def helpText : String :=
  usage ++ "\n" ++ "\n".intercalate
    ["Basic language front end", "", "positional arguments:",
      "  script         Path to the source file", "", "options:",
      "  -h, --help     show this help message and exit",
      "  --dump         Print an indented tree with positions",
      "  --format       Print the program re-rendered as source",
      "  -v, --verbose  Log parser activity to stderr", ""]

/-- What is said of arguments with a fault. -/
def complaint (fault : UsageFault) : String :=
  usage ++ s!"{programName}: error: {fault.message}\n"

end BasicSyntax.CommandLine
