import BasicSyntax.Program

/-! # Editor support — errors shown while a text is written

    An editor is told of each document it opens or changes which errors the document now has:
    one or none, since reading stops at the first.  Editors count lines and characters from
    zero.

    Between the two stands a server.  One library makes the points that it tells of, another
    keeps its documents.  What is used of them are parameters (`Protocol` and `Server`), and
    what they promise is said apart. -/

namespace BasicSyntax.Editor

/-- A point as editors count. -/
structure Point where
  line : Nat
  character : Nat
  deriving DecidableEq, Repr

/-- What the library of the protocol offers that servers and editors speak. -/
structure Protocol where
  /-- The point of a line and a character, or a complaint about one of them. -/
  point : Nat → Nat → Except String Point

/-- The greatest number that the protocol has for a line or a character. -/
def greatest : Nat := 2147483647

/-- An error at a stretch of a document. -/
structure Diagnostic where
  start : Point
  stop : Point
  message : String
  deriving DecidableEq, Repr

/-- How grave every diagnostic is: an error. -/
def severity : Nat := 1

/-- Where every diagnostic comes from. -/
def source : String := "basic"

/-- A diagnostic over the one character at a point; a number below zero counts as zero. -/
def diagnosticAt (protocol : Protocol) (line column : Int) (message : String) :
    Except String Diagnostic := do
  let start ← protocol.point line.toNat column.toNat
  let stop ← protocol.point line.toNat (column.toNat + 1)
  return ⟨start, stop, message⟩

/-- Why a document has no diagnostics to tell: a number in it is too long to be read, or the
    library makes no point of where its error is. -/
inductive Fault
  | longNumber (digits : Nat)
  | noPoint (complaint : String)
  deriving DecidableEq, Repr

/-- The complaint in words. -/
def Fault.message : Fault → String
  | longNumber digits => Text.tooLongMessage digits
  | noPoint complaint => complaint

/-- The diagnostics of a text. -/
def diagnose (protocol : Protocol) (text : String) : Except Fault (List Diagnostic) :=
  match Program.read text with
  | .ok _ => .ok []
  | .error (.syntaxError e) =>
    match diagnosticAt protocol ((e.pos.line : Int) - 1) ((e.pos.column : Int) - 1) e.text with
    | .ok diagnostic => .ok [diagnostic]
    | .error complaint => .error (.noPoint complaint)
  | .error (.longNumber digits) => .error (.longNumber digits)

/-- What an editor has done with a document. -/
inductive Occasion
  | opened
  | changed
  deriving DecidableEq, Repr

/-- A document is opened or changed: its name and the text it now has. -/
structure Edit where
  occasion : Occasion
  name : String
  text : String
  deriving DecidableEq, Repr

/-- The diagnostics that an editor is told a document has. -/
structure Publication where
  name : String
  diagnostics : List Diagnostic
  deriving DecidableEq, Repr

/-! ## Servers -/

/-- What the library of a server offers, over the states of the server.  How a document is looked
    up and how diagnostics are published has changed: a server has the newer way, or only the
    older one. -/
structure Server (σ : Type) where
  /-- Store the text of an edit; it is done before anyone is told of the edit. -/
  store : σ → Edit → σ
  textDocument? : Option (σ → String → String)
  document : σ → String → String
  publishParameters? : Option (σ → Publication → σ)
  publishDiagnostics : σ → String → List Diagnostic → σ

namespace Server

variable {σ : Type} (server : Server σ) (protocol : Protocol)

/-- The text of a document. -/
def lookup (state : σ) (name : String) : String :=
  (server.textDocument?.getD server.document) state name

/-- Publish the diagnostics of a document. -/
def publish (state : σ) (name : String) (diagnostics : List Diagnostic) : σ :=
  match server.publishParameters? with
  | some publish => publish state ⟨name, diagnostics⟩
  | none => server.publishDiagnostics state name diagnostics

/-- Find the diagnostics of a document and publish them. -/
def validate (state : σ) (name : String) : Except Fault σ := do
  let diagnostics ← diagnose protocol (server.lookup state name)
  return server.publish state name diagnostics

/-- What an edit leads to, on either occasion; a fault leaves behind what was stored. -/
def handle (state : σ) (edit : Edit) : σ × Option Fault :=
  let stored := server.store state edit
  match server.validate protocol stored edit.name with
  | .ok told => (told, none)
  | .error fault => (stored, some fault)

/-- Where edits lead, one after the other. -/
def run (state : σ) (edits : List Edit) : σ :=
  edits.foldl (fun state edit => (server.handle protocol state edit).1) state

end Server

/-! ## Libraries in memory -/

/-- A library that checks both numbers, that of the line first, and refuses all that the protocol
    does not have. -/
def Protocol.checked : Protocol where
  point line character :=
    if greatest < line then
      .error s!"Position.line should be in range [0:{greatest}], but was {line}."
    else if greatest < character then
      .error s!"Position.character should be in range [0:{greatest}], but was {character}."
    else .ok ⟨line, character⟩

/-- Documents by their names. -/
abbrev Documents := List (String × String)

namespace Documents

/-- Store a document. -/
def put (documents : Documents) (name text : String) : Documents :=
  (name, text) :: documents.filter fun entry => entry.1 != name

/-- The text of a document. -/
def text? (documents : Documents) (name : String) : Option String :=
  documents.lookup name

end Documents

/-- The documents that a server has, and all that it has published, the latest last. -/
structure Memory where
  documents : Documents
  published : List Publication
  deriving DecidableEq, Repr

namespace Memory

/-- Store the text of an edit. -/
def store (memory : Memory) (edit : Edit) : Memory :=
  ⟨memory.documents.put edit.name edit.text, memory.published⟩

/-- The text of a document; one that is not known has none. -/
def text (memory : Memory) (name : String) : String :=
  (memory.documents.text? name).getD ""

/-- Publish. -/
def publish (memory : Memory) (publication : Publication) : Memory :=
  ⟨memory.documents, memory.published ++ [publication]⟩

end Memory

/-- The two generations of the library that keeps the documents. -/
inductive Generation
  | older
  | newer
  deriving DecidableEq, Repr

/-- A server of a generation; the older one has the older ways only. -/
def Generation.server (generation : Generation) : Server Memory where
  store := Memory.store
  textDocument? := if generation = newer then some Memory.text else none
  document := Memory.text
  publishParameters? := if generation = newer then some Memory.publish else none
  publishDiagnostics memory name diagnostics := memory.publish ⟨name, diagnostics⟩

end BasicSyntax.Editor
