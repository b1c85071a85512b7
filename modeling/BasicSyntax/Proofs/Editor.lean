import BasicSyntax.Editor
import BasicSyntax.Proofs.ErrorPoint

/-! # Editor support — what is published of a document, and where it points

    An error points into the document it is found in, also where it is found in the newline that
    was supplied (`Program.error_inside`): the text above the point is a part of the document.  So
    its diagnostic starts inside the document.

    A server publishes by what an edit says alone (`told`).  One step of a lawful server adds that
    to what was published before, and so does, edit by edit, a whole session (`run_published`);
    which way the library offers for looking up and for publishing makes no difference.  Where an
    error is told of, the library of the protocol has to make its points (`Protocol.Lawful`). -/

namespace BasicSyntax

open Text

/-! ## Points inside a document -/

/-- A point is on one of the lines of a text, or right behind its end. -/
def Editor.Point.Inside (p : Point) (text : String) : Prop :=
  ∃ _ : p.line < (pieces '\n' text.toList).length,
    p.character ≤ (pieces '\n' text.toList)[p.line].length

/-- The numbers of a point inside a text are no greater than the text is long. -/
theorem Editor.Point.Inside.bounded {p : Point} {text : String} (h : p.Inside text) :
    p.line ≤ text.length ∧ p.character ≤ text.length := by
  obtain ⟨hline, hcharacter⟩ := h
  constructor
  · rw [pieces_length] at hline
    exact Nat.le_trans (Nat.le_of_lt_succ hline) List.count_le_length
  · exact Nat.le_trans hcharacter (pieces_bounded _ _ _ (List.getElem_mem hline))

/-- What is above a place of a completed text is above the same place of the text. -/
theorem Program.complete_above {text above rest : List Char} (h : complete text = above ++ rest)
    (hne : rest ≠ []) : ∃ below, text = above ++ below := by
  rcases complete_cases text with ⟨heq, -⟩ | ⟨heq, -⟩
  · exact ⟨rest, heq.symm.trans h⟩
  · rw [heq] at h
    refine ⟨rest.dropLast, ?_⟩
    rw [← List.dropLast_append_of_ne_nil hne, ← h, List.dropLast_concat]

/-- The point of an error, counted from zero, is inside the source. -/
theorem Program.error_inside {source : String} {e : SyntaxError}
    (h : read source = .error (.syntaxError e)) :
    1 ≤ e.pos.line ∧ 1 ≤ e.pos.column ∧
      (Editor.Point.mk (e.pos.line - 1) (e.pos.column - 1)).Inside source := by
  obtain ⟨above, rest, hp⟩ := error_points ((read_syntaxError_iff source e).mp h)
    (complete_last source.toList)
  obtain ⟨below, hbelow⟩ := complete_above hp.split hp.met.nonempty
  have hline := pieces_at above below
  rw [← hbelow] at hline
  obtain ⟨hlt, heq⟩ := List.getElem?_eq_some_iff.mp hline
  rw [hp.pos]
  refine ⟨Nat.le_add_left .., Nat.le_add_left .., hlt, ?_⟩
  show (lastLine above).length ≤ ((pieces '\n' source.toList)[above.count '\n']).length
  rw [heq, List.length_append]
  exact Nat.le_add_right ..

namespace Editor

/-! ## Diagnostics -/

/-- What the library of the protocol promises: it makes a point of all numbers that the protocol
    has. -/
structure Protocol.Lawful (protocol : Protocol) : Prop where
  point : ∀ line character, line ≤ greatest → character ≤ greatest →
    protocol.point line character = .ok ⟨line, character⟩

variable {protocol : Protocol}

theorem diagnose_read {text : String} {stmts : List Node} (h : Program.read text = .ok stmts) :
    diagnose protocol text = .ok [] := by
  rw [diagnose, h]

/-- An editor has nothing to tell of the programs, and of nothing else. -/
theorem diagnose_none (protocol : Protocol) (text : String) :
    diagnose protocol text = .ok [] ↔ ∃ stmts, Program.read text = .ok stmts := by
  rw [diagnose]
  cases Program.read text with
  | ok stmts => exact iff_of_true rfl ⟨stmts, rfl⟩
  | error e =>
      refine iff_of_false ?_ fun h => nomatch h.choose_spec
      cases e with
      | longNumber digits => exact nofun
      | syntaxError e =>
          dsimp only
          split <;> exact nofun

/-- The diagnostic of an error starts at its point, counted from zero, and is one character
    long. -/
def diagnosticOf (e : SyntaxError) : Diagnostic :=
  ⟨⟨e.pos.line - 1, e.pos.column - 1⟩, ⟨e.pos.line - 1, e.pos.column - 1 + 1⟩, e.text⟩

/-- The numbers of the diagnostic are among those that the protocol has. -/
def Near (e : SyntaxError) : Prop :=
  e.pos.line - 1 ≤ greatest ∧ e.pos.column - 1 + 1 ≤ greatest

/-- So they are in every text that is shorter than the greatest of those. -/
theorem near_error {text : String} {e : SyntaxError}
    (h : Program.read text = .error (.syntaxError e)) (hlength : text.length < greatest) :
    Near e := by
  obtain ⟨hline, hcharacter⟩ := (Program.error_inside h).2.2.bounded
  exact ⟨Nat.le_of_lt (Nat.lt_of_le_of_lt hline hlength), Nat.lt_of_le_of_lt hcharacter hlength⟩

theorem diagnose_error (hp : protocol.Lawful) {text : String} {e : SyntaxError}
    (h : Program.read text = .error (.syntaxError e)) (hnear : Near e) :
    diagnose protocol text = .ok [diagnosticOf e] := by
  obtain ⟨hl, hc⟩ := hnear
  have hline : ((e.pos.line : Int) - 1).toNat = e.pos.line - 1 := Int.toNat_sub _ 1
  have hcolumn : ((e.pos.column : Int) - 1).toNat = e.pos.column - 1 := Int.toNat_sub _ 1
  have hat : diagnosticAt protocol ((e.pos.line : Int) - 1) ((e.pos.column : Int) - 1) e.text =
      .ok (diagnosticOf e) := by
    rw [diagnosticAt, hline, hcolumn, hp.point _ _ hl (Nat.le_trans (Nat.le_add_right _ 1) hc),
      hp.point _ _ hl hc]
    rfl
  rw [diagnose, h]
  simp only [hat]

/-! ## Servers -/

/-- What an edit makes a server publish; a fault keeps it from publishing. -/
def told (protocol : Protocol) (edit : Edit) : List Publication :=
  match diagnose protocol edit.text with
  | .ok diagnostics => [⟨edit.name, diagnostics⟩]
  | .error _ => []

variable {σ : Type} {server : Server σ} {published : σ → List Publication}

/-- What the library promises of the ways that are used: a document that was stored last is
    looked up as it was stored, and publishing adds to what was published, which storing does
    not. -/
structure Server.Lawful (server : Server σ) (published : σ → List Publication) : Prop where
  store : ∀ state edit, published (server.store state edit) = published state
  textDocument : ∀ lookup ∈ server.textDocument?, ∀ state edit,
    lookup (server.store state edit) edit.name = edit.text
  document : server.textDocument? = none → ∀ state edit,
    server.document (server.store state edit) edit.name = edit.text
  publishParameters : ∀ publish ∈ server.publishParameters?, ∀ state publication,
    published (publish state publication) = published state ++ [publication]
  publishDiagnostics : server.publishParameters? = none → ∀ state name diagnostics,
    published (server.publishDiagnostics state name diagnostics) =
      published state ++ [⟨name, diagnostics⟩]

namespace Server

/-- Whichever way is taken, the text of an edit is looked up behind it. -/
theorem lookup_stored (h : server.Lawful published) (state : σ) (edit : Edit) :
    server.lookup (server.store state edit) edit.name = edit.text := by
  rw [lookup]
  cases hnew : server.textDocument? with
  | some lookup => exact h.textDocument lookup hnew state edit
  | none => exact h.document hnew state edit

/-- Whichever way is taken, publishing adds to what was published. -/
theorem publish_published (h : server.Lawful published) (state : σ) (name : String)
    (diagnostics : List Diagnostic) :
    published (server.publish state name diagnostics) =
      published state ++ [⟨name, diagnostics⟩] := by
  rw [publish]
  cases hnew : server.publishParameters? with
  | some publish => exact h.publishParameters publish hnew state ⟨name, diagnostics⟩
  | none => exact h.publishDiagnostics hnew state name diagnostics

/-- **ONE EDIT** adds what it says by itself, from whatever state. -/
theorem handle_published (h : server.Lawful published) (state : σ) (edit : Edit) :
    published (server.handle protocol state edit).1 =
      published state ++ told protocol edit := by
  rw [handle, validate, lookup_stored h, told]
  cases diagnose protocol edit.text with
  | error fault =>
      rw [List.append_nil]
      exact h.store state edit
  | ok diagnostics => exact (publish_published h _ _ _).trans (by rw [h.store])

theorem run_append (state : σ) (before : List Edit) (edit : Edit) :
    server.run protocol state (before ++ [edit]) =
      (server.handle protocol (server.run protocol state before) edit).1 :=
  List.foldl_concat ..

end Server

/-- **PUBLISHING**: a session publishes what its edits say one by one, and that is told by the
    name and the text of an edit, whatever was edited before and whichever ways the library
    offers.  Behind an edit there is one publication more, for its document: with nothing if the
    text is a program, and if it has a syntax error with the one diagnostic of the error.  This
    starts at the point of the error, counted from zero, which is inside the document, and it is
    one character long.  Its numbers must be among those that the protocol has, which they are in
    every document that is shorter than the greatest of these. -/
theorem run_published {σ : Type} {protocol : Protocol} {server : Server σ}
    {published : σ → List Publication} (hp : protocol.Lawful) (h : server.Lawful published)
    (state : σ) :
    (∀ edits, published (server.run protocol state edits) =
      published state ++ edits.flatMap (told protocol)) ∧
    ∀ (before : List Edit) (edit : Edit),
      let earlier := published (server.run protocol state before)
      let now := published (server.run protocol state (before ++ [edit]))
      (∀ stmts, Program.read edit.text = .ok stmts → now = earlier ++ [⟨edit.name, []⟩]) ∧
      ∀ e, Program.read edit.text = .error (.syntaxError e) →
        1 ≤ e.pos.line ∧ 1 ≤ e.pos.column ∧
        Point.Inside ⟨e.pos.line - 1, e.pos.column - 1⟩ edit.text ∧
        (edit.text.length < greatest → Near e) ∧
        (Near e → now = earlier ++ [⟨edit.name, [⟨⟨e.pos.line - 1, e.pos.column - 1⟩,
          ⟨e.pos.line - 1, e.pos.column - 1 + 1⟩, e.text⟩]⟩]) := by
  have hedit : ∀ before edit, published (server.run protocol state (before ++ [edit])) =
      published (server.run protocol state before) ++ told protocol edit := by
    intro before edit
    rw [Server.run_append]
    exact Server.handle_published h _ edit
  constructor
  · intro edits
    induction edits using List.reverseRecOn with
    | nil => exact (List.append_nil _).symm
    | append_singleton before edit ih =>
        rw [hedit, ih, List.flatMap_append, List.append_assoc, List.flatMap_singleton]
  · intro before edit earlier now
    constructor
    · intro stmts hread
      show published _ = published _ ++ _
      rw [hedit, told, diagnose_read hread]
    · intro e hread
      obtain ⟨hline, hcolumn, hinside⟩ := Program.error_inside hread
      refine ⟨hline, hcolumn, hinside, near_error hread, fun hnear => ?_⟩
      show published _ = published _ ++ _
      rw [hedit, told, diagnose_error hp hread hnear]
      rfl

/-! ## Libraries in memory -/

theorem Protocol.checked_lawful : Protocol.checked.Lawful := by
  refine ⟨fun line character hl hc => ?_⟩
  calc Protocol.checked.point line character
      = if greatest < character then _ else .ok ⟨line, character⟩ := if_neg (Nat.not_lt.mpr hl)
    _ = .ok ⟨line, character⟩ := if_neg (Nat.not_lt.mpr hc)

theorem Documents.text?_put (documents : Documents) (name text : String) :
    (documents.put name text).text? name = some text := by
  rw [put, text?, List.lookup_cons, beq_self_eq_true]

/-- A server in memory is lawful, with either generation of the library. -/
theorem Generation.lawful (generation : Generation) :
    generation.server.Lawful Memory.published := by
  have htext : ∀ (memory : Memory) (edit : Edit),
      (memory.store edit).text edit.name = edit.text := by
    intro memory edit
    rw [Memory.text, Memory.store, Documents.text?_put]
    rfl
  cases generation with
  | older =>
      exact ⟨fun _ _ => rfl, nofun, fun _ => htext, nofun, fun _ _ _ _ => rfl⟩
  | newer =>
      refine ⟨fun _ _ => rfl, ?_, nofun, ?_, nofun⟩
      · rintro lookup ⟨⟩
        exact htext
      · rintro publish ⟨⟩ memory publication
        rfl

/-- A document is opened that binds a reserved word. -/
def boundWord : Edit := ⟨.opened, "a", "let if = 1"⟩

/-- The document is changed, and now binds a name that only begins with the word. -/
def boundName : Edit := ⟨.changed, "a", "let iffy = 1"⟩

/-- The word is told of where it stands, and behind the change there is nothing to tell, with
    either generation of the library. -/
theorem run_published_word :
    ∃ e : SyntaxError, e.pos = ⟨1, 5⟩ ∧ Point.Inside ⟨0, 4⟩ boundWord.text ∧
      (Generation.older.server.run .checked ⟨[], []⟩ [boundWord, boundName]).published =
        [⟨"a", [⟨⟨0, 4⟩, ⟨0, 5⟩, e.text⟩]⟩, ⟨"a", []⟩] ∧
      (Generation.newer.server.run .checked ⟨[], []⟩ [boundWord, boundName]).published =
        [⟨"a", [⟨⟨0, 4⟩, ⟨0, 5⟩, e.text⟩]⟩, ⟨"a", []⟩] := by
  obtain ⟨e, hword, hpos⟩ := Program.read_fault
    (show Program.faultPoint? (Program.read boundWord.text) = some ⟨1, 5⟩ by decide +kernel)
  obtain ⟨stmts, hname⟩ := Program.read_isOk
    (show (Program.read boundName.text).isOk = true by decide +kernel)
  have hedit := fun generation : Generation =>
    (run_published Protocol.checked_lawful generation.lawful ⟨[], []⟩).2
  have hpublished : ∀ generation : Generation,
      (generation.server.run .checked ⟨[], []⟩ [boundWord, boundName]).published =
        [⟨"a", [⟨⟨0, 4⟩, ⟨0, 5⟩, e.text⟩]⟩, ⟨"a", []⟩] := by
    intro generation
    have hfirst : (generation.server.run .checked ⟨[], []⟩ [boundWord]).published =
        [⟨"a", [⟨⟨0, 4⟩, ⟨0, 5⟩, e.text⟩]⟩] := by
      obtain ⟨-, -, -, hnear, h⟩ := (hedit generation [] boundWord).2 e hword
      have h := h (hnear (by decide))
      rw [hpos] at h
      exact h
    refine ((hedit generation [boundWord] boundName).1 stmts hname).trans ?_
    rw [hfirst]
    rfl
  have hinside := ((hedit .older [] boundWord).2 e hword).2.2.1
  rw [hpos] at hinside
  exact ⟨e, hpos, hinside, hpublished .older, hpublished .newer⟩

end Editor

end BasicSyntax
