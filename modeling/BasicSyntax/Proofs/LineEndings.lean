import BasicSyntax.Proofs.Composition
import BasicSyntax.Proofs.Editor
import BasicSyntax.Proofs.Format
import BasicSyntax.Proofs.Token.Newlines

/-! # Line endings — a program is the same in lines that end in two ways

    A run of the command line unifies the newlines of a script, and an editor does not.  Where
    every carriage return stands before a newline this makes no difference.  The two texts have
    the same tokens but for the columns of separators (`Tokens.ofText_unified`), and of a
    separator nothing is built, so reading them side by side builds the same nodes
    (`unifiedLikeness`).  A token out of place may be a separator in another column; its line is
    the same.

    So an editor has nothing to tell of a document exactly where a run on a file that holds the
    document returns 0 (`line_endings`). -/

namespace BasicSyntax

open Text

/-! ## Reading side by side -/

namespace Token.Unified

variable {t t' : Token}

theorem binder (h : t.Unified t') (hk : t.terminal = .identifier) :
    Parse.binderOf t = Parse.binderOf t' := by
  rw [Parse.binderOf, Parse.binderOf, h.text, h.pos (by rw [hk]; decide)]

theorem operator (h : t.Unified t') (hk : t.terminal = .operator ∨ t.terminal = .minus) :
    Parse.operatorOf t = Parse.operatorOf t' := by
  rw [Parse.operatorOf, Parse.operatorOf, h.text,
    h.pos (by rcases hk with hk | hk <;> rw [hk] <;> decide)]

theorem literal (h : t.Unified t') (hk : t.terminal = .number ∨ t.terminal = .string) :
    Parse.literalOf t = Parse.literalOf t' := by
  rw [Parse.literalOf, Parse.literalOf, h.text, h.terminal,
    h.pos (by rcases hk with hk | hk <;> rw [hk] <;> decide)]

end Token.Unified

/-- Lists with equal entries are equal. -/
theorem eq_of_forall₂ {α : Type} {xs ys : List α} (h : List.Forall₂ Eq xs ys) : xs = ys := by
  rw [List.forall₂_eq_eq_eq] at h
  exact h

/-- Tokens that differ in the columns of separators, and equal nodes. -/
def unifiedLikeness : Likeness where
  token := Token.Unified
  place := Eq
  binder := Eq
  operator := Eq
  node := Eq
  lines := Eq
  terminal_eq h := h.terminal.symm
  token_place h hk := (h.pos (by rw [hk]; decide)).symm
  token_binder := Token.Unified.binder
  token_operator := Token.Unified.operator
  token_literal := Token.Unified.literal
  token_underline h hk := by rw [h.pos (by rw [hk]; decide)]
  null := rfl
  name := by
    rintro b _ rfl
    rfl
  negative := by
    rintro n _ rfl
    rfl
  run := by
    rintro before before' n _ hbefore rfl
    rw [eq_of_forall₂ (hbefore.imp fun _ _ h => Prod.ext h.1 h.2)]
  application := by
    rintro b _ ns ns' rfl hns
    rw [eq_of_forall₂ hns]
  enclosed := by
    rintro ns ns' form hns
    rw [eq_of_forall₂ hns]
  function := by
    rintro p _ bs bs' n _ rfl hbs rfl
    rw [eq_of_forall₂ hbs]
  conditional := by
    rintro c _ m _ rfl rfl
    rfl
  conditionalElse := by
    rintro c _ m _ n _ rfl rfl rfl
    rfl
  loop := by
    rintro c _ n _ rfl rfl
    rfl
  binding := by
    rintro b _ bs bs' n _ form rfl hbs rfl
    rw [eq_of_forall₂ hbs]
  lines_cons := by
    rintro n _ ns _ rfl rfl
    rfl

namespace Program

section

variable {text : List Char}

/-- Two syntax errors are of one kind, with the same expectation, on the same line. -/
structure SameFault (e e' : SyntaxError) : Prop where
  cause : e'.cause = e.cause
  expected : e'.expected = e.expected
  line : e'.pos.line = e.pos.line

/-- Texts that end too early do so on the line of their last tokens. -/
theorem endError_unified {ts ts' : List Token} (h : List.Forall₂ Token.Unified ts ts')
    (text text' : List Char) (expected : Parse.Expected) :
    SameFault (endError text ts expected) (endError text' ts' expected) := by
  have hlast := List.forall₂_reverse_iff.mpr h
  rw [endError, endError, List.getLast?_eq_head?_reverse, List.getLast?_eq_head?_reverse]
  generalize ts.reverse = us at hlast
  generalize ts'.reverse = us' at hlast
  cases hlast with
  | nil => exact ⟨rfl, rfl, rfl⟩
  | cons ht _ => exact ⟨rfl, rfl, ht.line⟩

theorem run_unified (h : Paired text) :
    Parse.RunAlike unifiedLikeness (Parse.run .start (Tokens.ofText text).tokens)
      (Parse.run .start (Tokens.ofText (unifyNewlines text)).tokens) :=
  Parse.run_alike (Tokens.ofText_unified h).tokens (.stmt (.line rfl))

/-- With unified newlines a program is the same. -/
theorem statements_unified (h : Paired text) {stmts : List Node}
    (hstmts : statements text = .ok stmts) : statements (unifyNewlines text) = .ok stmts := by
  obtain ⟨hs, hr⟩ := statements_reached hstmts
  have halike := run_unified h
  have hstray := (Tokens.ofText_unified h).stray
  rw [hs] at hstray
  rw [hr] at halike
  obtain ⟨reached, hrun, hreached⟩ := halike.ok
  refine statements_done hrun (Option.map_eq_none_iff.mp hstray) ?_
  cases hreached with
  | stmt hc =>
      cases hc with
      | line hlines =>
          rw [← show _ = _ from hlines, Parse.finish, List.reverse_reverse]

/-- With unified newlines a text that is no program fails for the same reason on the same
    line. -/
theorem statements_error_unified (h : Paired text) {e : SyntaxError}
    (he : statements text = .error e) :
    ∃ e', statements (unifyNewlines text) = .error e' ∧ SameFault e e' := by
  have halike := run_unified h
  have hcut := Tokens.ofText_unified h
  rcases statements_error he with ⟨refusal, hr, rfl⟩ | ⟨reached, stray, hr, hs, rfl⟩ |
    ⟨reached, expected, hr, hs, hf, rfl⟩
  · rw [hr] at halike
    obtain ⟨refusal', hrun, htoken, hexpected⟩ := halike.error
    have htoken : refusal.token.Unified refusal'.token := htoken
    exact ⟨_, statements_refused hrun, congrArg Cause.token htoken.text, hexpected.symm,
      htoken.line⟩
  · rw [hr] at halike
    have hstray := hcut.stray
    rw [hs] at hstray
    obtain ⟨_, hrun, -⟩ := halike.ok
    obtain ⟨stray', hs', hshown⟩ := Option.map_eq_some_iff.mp hstray
    obtain ⟨hchar, hpos⟩ := Prod.mk.inj hshown
    exact ⟨_, statements_stray hrun hs', congrArg Cause.character hchar, rfl,
      congrArg Position.line hpos⟩
  · rw [hr] at halike
    have hstray := hcut.stray
    rw [hs] at hstray
    obtain ⟨_, hrun, hreached⟩ := halike.ok
    exact ⟨_, statements_ended hrun (Option.map_eq_none_iff.mp hstray)
      (Parse.finish_alike hreached hf), endError_unified hcut.tokens _ _ _⟩

/-- Numbers are as long as before. -/
theorem longNumber?_unified {ts ts' : List Token} (h : List.Forall₂ Token.Unified ts ts') :
    longNumber? ts' = longNumber? ts := by
  induction h with
  | nil => rfl
  | @cons t t' ts ts' ht _ ih =>
      rw [longNumber?, List.find?_cons, ht.terminal, ht.text, longNumber?, List.find?_cons]
      split
      · exact congrArg (fun text => some (String.length text)) ht.text
      · exact ih

/-- Completing a text and unifying its newlines may be done in either order. -/
theorem complete_unified (h : Paired text) :
    complete (unifyNewlines text) = unifyNewlines (complete text) ∧ Paired (complete text) := by
  rcases complete_cases text with ⟨heq, hlast⟩ | ⟨heq, c, hc, hno⟩
  · rw [heq]
    rw [← h.unify_last] at hlast
    exact ⟨complete_separated hlast, h⟩
  · rw [heq, h.unify_concat]
    rw [← h.unify_last] at hc
    exact ⟨complete_unseparated hc hno, h.concat⟩

end

/-! ## Reading with unified newlines -/

/-- A source with unified newlines. -/
def unified (source : String) : String := String.ofList (unifyNewlines source.toList)

section

variable {source : String}

/-- What reading gives, with unified newlines. -/
theorem read_unified (h : Paired source.toList) :
    (∀ stmts, read source = .ok stmts → read (unified source) = .ok stmts) ∧
    (∀ digits, read source = .error (.longNumber digits) →
      read (unified source) = .error (.longNumber digits)) ∧
    ∀ e, read source = .error (.syntaxError e) →
      ∃ e', read (unified source) = .error (.syntaxError e') ∧ SameFault e e' := by
  obtain ⟨hcomplete, hpaired⟩ := complete_unified h
  rw [← String.toList_ofList (l := unifyNewlines source.toList)] at hcomplete
  have hlong := longNumber?_unified (Tokens.ofText_unified hpaired).tokens
  rw [← hcomplete] at hlong
  refine ⟨?_, ?_, ?_⟩
  · intro stmts hread
    obtain ⟨hs, hshort⟩ := (read_ok_iff source stmts).mp hread
    refine (read_ok_iff _ _).mpr ⟨?_, hlong.trans hshort⟩
    rw [unified, hcomplete]
    exact statements_unified hpaired hs
  · intro digits hread
    obtain ⟨⟨stmts, hs⟩, hl⟩ := (read_longNumber_iff source digits).mp hread
    refine (read_longNumber_iff _ _).mpr ⟨⟨stmts, ?_⟩, hlong.trans hl⟩
    rw [unified, hcomplete]
    exact statements_unified hpaired hs
  · intro e he
    obtain ⟨e', hs, hsame⟩ :=
      statements_error_unified hpaired ((read_syntaxError_iff source e).mp he)
    rw [← hcomplete] at hs
    exact ⟨e', read_failed hs, hsame⟩

/-- A source is a program exactly if it is one with unified newlines, and then the same one. -/
theorem read_unified_iff (h : Paired source.toList) (stmts : List Node) :
    read source = .ok stmts ↔ read (unified source) = .ok stmts := by
  obtain ⟨hok, hlong, hfault⟩ := read_unified h
  refine ⟨hok stmts, fun hread => ?_⟩
  cases hs : read source with
  | ok stmts' =>
      rw [hok stmts' hs] at hread
      exact congrArg Except.ok (Except.ok.inj hread)
  | error e =>
      cases e with
      | longNumber digits =>
          rw [hlong digits hs] at hread
          exact nomatch hread
      | syntaxError e =>
          obtain ⟨e', he', -⟩ := hfault e hs
          rw [he'] at hread
          exact nomatch hread

end

end Program

/-! ## The editor and the command line -/

namespace CommandLine

/-- A program is shown in every way. -/
theorem shownText_read (mode : Mode) {source : String} {stmts : List Node}
    (h : Program.read source = .ok stmts) : ∃ out, shownText mode stmts = .ok out := by
  by_cases hnil : stmts = []
  · rw [hnil]
    exact ⟨"", rfl⟩
  · obtain ⟨text, hrender⟩ := render_entries mode (Program.read_entries h)
    exact ⟨_, shownText_ok hnil hrender⟩

/-- A run with a script returns 0 exactly if the text in its file is a program once newlines are
    unified, unless the run stops before it reads the text. -/
theorem run_accepts {arguments : List String} {options : Options} {script source : String}
    {surroundings : Surroundings} {working : String} {tree : FileTree} (input : String)
    (hread : readArguments arguments = .ok (.run options)) (hs : options.script = some script)
    (hne : script ≠ "") (hpath : '\x00' ∉ (wholePath working script).toList)
    (hlevel : ∃ least, threshold (options.logLevel surroundings) = .ok least)
    (hlimit : ∃ n, callLimit surroundings.limit = .ok n)
    (hopen : tree.open? (wholePath working script) = .ok source.toUTF8.data.toList) :
    (run arguments surroundings working tree input).ending = .returned 0 ↔
      ∃ stmts, Program.read (Program.unified source) = .ok stmts := by
  have hdecode : Text.decodeUtf8 source.toUTF8.data.toList = .ok source.toList := by
    rw [Text.toUTF8_encode, Text.decodeUtf8_encode]
  constructor
  · intro hreturned
    obtain ⟨-, hshows⟩ := (run_returns surroundings working tree input _ hread hs hne).mp
      ⟨hreturned, rfl⟩
    rw [hopen] at hshows
    cases hshows with
    | script _ hdecode' _ hprogram _ =>
        obtain rfl := Except.ok.inj (hdecode.symm.trans hdecode')
        exact ⟨_, hprogram⟩
  · rintro ⟨stmts, hprogram⟩
    obtain ⟨n, hn⟩ := hlimit
    obtain ⟨out, hshown⟩ := shownText_read options.showAs hprogram
    refine ((run_returns surroundings working tree input out hread hs hne).mpr ⟨hlevel, ?_⟩).1
    rw [hopen]
    exact .script hpath hdecode hn hprogram hshown

/-- **LINE ENDINGS**: let every carriage return of a source stand before a newline.  With unified
    newlines it is a program exactly if it is one as it is, and then the same one down to the
    points of its nodes, and a syntax error is one on the same line.  So an editor has nothing to
    tell of a document exactly if a run on a file that holds the document returns 0. -/
theorem line_endings (source : String) (h : Paired source.toList) :
    (∀ stmts, Program.read source = .ok stmts ↔
      Program.read (Program.unified source) = .ok stmts) ∧
    (∀ e, Program.read source = .error (.syntaxError e) →
      ∃ e', Program.read (Program.unified source) = .error (.syntaxError e') ∧
        Program.SameFault e e') ∧
    ∀ (protocol : Editor.Protocol) (arguments : List String) (options : Options)
      (script : String) (surroundings : Surroundings) (working : String) (tree : FileTree)
      (input : String),
      readArguments arguments = .ok (.run options) → options.script = some script →
      script ≠ "" → '\x00' ∉ (wholePath working script).toList →
      (∃ least, threshold (options.logLevel surroundings) = .ok least) →
      (∃ n, callLimit surroundings.limit = .ok n) →
      tree.open? (wholePath working script) = .ok source.toUTF8.data.toList →
      (Editor.diagnose protocol source = .ok [] ↔
        (run arguments surroundings working tree input).ending = .returned 0) := by
  refine ⟨Program.read_unified_iff h, (Program.read_unified h).2.2, ?_⟩
  intro protocol arguments options script surroundings working tree input hread hs hne hpath
    hlevel hlimit hopen
  rw [Editor.diagnose_none, run_accepts input hread hs hne hpath hlevel hlimit hopen]
  exact exists_congr (Program.read_unified_iff h)

/-- A name on a line that ends in a carriage return and a newline. -/
def pairedLine : String := "a\x0d\n"

/-- The line is read as the name, and a run on it returns 0 as an editor has nothing to tell.  The
    bracket that nothing opened, behind it, is on the second line with unified newlines too. -/
theorem line_endings_name :
    Program.read (Program.unified pairedLine) = .ok [.binder ⟨"a", some ⟨1, 1⟩⟩] ∧
    (run ["a.bas"] ⟨none, none⟩ "/" (oneScript "/a.bas" pairedLine.toUTF8.data.toList)
      "").ending = .returned 0 ∧
    ∃ e', Program.read (Program.unified (pairedLine ++ ")\x0d\n")) = .error (.syntaxError e') ∧
      e'.pos.line = 2 := by
  have hline : Paired pairedLine.toList := .other (by decide) (.pair .nil)
  have hbracket : Paired (pairedLine ++ ")\x0d\n").toList :=
    .other (by decide) (.pair (.other (by decide) (.pair .nil)))
  refine ⟨((line_endings pairedLine hline).1 _).mp rfl, ?_, ?_⟩
  · refine ((line_endings pairedLine hline).2.2 .checked ["a.bas"] ⟨some "a.bas", none, false⟩
      "a.bas" ⟨none, none⟩ "/" (oneScript "/a.bas" pairedLine.toUTF8.data.toList) ""
      (by decide +kernel) rfl (by decide) (by decide +kernel) ⟨_, rfl⟩ ⟨_, rfl⟩ rfl).mp rfl
  · have hpoint : Program.faultPoint? (Program.read (pairedLine ++ ")\x0d\n")) = some ⟨2, 1⟩ := by
      decide +kernel
    obtain ⟨e, hread, hpos⟩ := Program.read_fault hpoint
    obtain ⟨e', he', hsame⟩ := (line_endings (pairedLine ++ ")\x0d\n") hbracket).2.1 e hread
    exact ⟨e', he', hsame.line.trans (congrArg Position.line hpos)⟩

end CommandLine

end BasicSyntax
