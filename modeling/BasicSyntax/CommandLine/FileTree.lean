import BasicSyntax.Text.Lines

/-! # File trees — files and folders by their paths

    A path is made whole before it is opened: it is taken from the working folder, and `.`,
    `..` and doubled slashes are resolved by their spelling alone.  A tree held in memory knows
    its files and folders by their whole paths.  Every beginning of such a path is a folder,
    and so the root always is one. -/

namespace BasicSyntax.CommandLine

/-- Why a file cannot be opened. -/
inductive OpenFault
  | missing
  | denied
  | notFolder
  | isFolder
  | longName
  deriving DecidableEq, Repr

/-- A fault with its number. -/
def OpenFault.message : OpenFault → String
  | missing => "[Errno 2] No such file or directory"
  | denied => "[Errno 13] Permission denied"
  | notFolder => "[Errno 20] Not a directory"
  | isFolder => "[Errno 21] Is a directory"
  | longName => "[Errno 36] File name too long"

/-- The parts of a path between its slashes. -/
def pathParts (path : String) : List (List Char) :=
  Text.pieces '/' path.toList

/-- Resolve parts against those before them, the last of which comes first.  A step up from the
    root stays there, one from nowhere is kept. -/
def resolveParts (rooted : Bool) (before : List (List Char)) :
    List (List Char) → List (List Char)
  | [] => before.reverse
  | part :: rest =>
    if part == [] || part == ['.'] then resolveParts rooted before rest
    else if part == ['.', '.'] then
      match before with
      | [] => resolveParts rooted (if rooted then [] else [part]) rest
      | last :: more =>
        if last == ['.', '.'] then resolveParts rooted (part :: before) rest
        else resolveParts rooted more rest
    else resolveParts rooted (part :: before) rest

/-- The slashes that a path begins with: two stay two, and more are one. -/
def rootOf (path : List Char) : List Char :=
  match path.takeWhile (· == '/') with
  | ['/', '/'] => ['/', '/']
  | [] => []
  | _ => ['/']

/-- A path resolved by its spelling. -/
def normalPath (path : String) : String :=
  let root := rootOf path.toList
  let parts := resolveParts (!root.isEmpty) [] (pathParts path)
  match root ++ ['/'].intercalate parts with
  | [] => "."
  | whole => String.ofList whole

/-- A path made whole from the working folder. -/
def wholePath (working path : String) : String :=
  if path.toList.head? == some '/' then normalPath path
  else if working.toList.getLast? == some '/' then normalPath (working ++ path)
  else normalPath (working ++ "/" ++ path)

/-- What stands at a path. -/
inductive Entry
  | folder
  | file (bytes : List UInt8)
  deriving DecidableEq, Repr

/-- Files and folders held in memory, each with the parts of its whole path. -/
abbrev FileTree := List (List (List Char) × Entry)

/-- The greatest length of a part of a path, in bytes. -/
def longestName : Nat := 255

/-- The greatest length of a whole path, in bytes. -/
def longestPath : Nat := 4095

namespace FileTree

/-- Something that stands at a path. -/
def entryAt (path : String) (entry : Entry) : List (List Char) × Entry :=
  ((pathParts path).filter (!·.isEmpty), entry)

/-- Open a file by the parts of its path behind a folder, whose own parts are given. -/
def openBehind (tree : FileTree) (before : List (List Char)) :
    List (List Char) → Except OpenFault (List UInt8)
  | [] => .error .isFolder
  | part :: rest =>
    let here := before ++ [part]
    if longestName < (String.ofList part).utf8ByteSize then .error .longName
    else
      match tree.lookup here with
      | some (.file bytes) => if rest.isEmpty then .ok bytes else .error .notFolder
      | _ =>
        if tree.any fun entry => here.isPrefixOf entry.1 then openBehind tree here rest
        else .error .missing

/-- Open a file by a whole path. -/
def open? (tree : FileTree) (path : String) : Except OpenFault (List UInt8) :=
  if longestPath < path.utf8ByteSize then .error .longName
  else tree.openBehind [] ((pathParts path).filter (!·.isEmpty))

end FileTree

end BasicSyntax.CommandLine
