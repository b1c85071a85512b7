import BasicSyntax.CommandLine.Run

/-! # Scripts — when a run shows one, and as what

    A script is shown if its file is opened and its bytes are those of a text, and if that text
    is a program with a form of the kind asked for (`Shows`).  A run with a script returns 0
    exactly then, and all that it writes to the output is that form (`run_returns`).  What goes
    to the log leaves no trace there, and whatever goes wrong makes the run end in another
    way. -/

namespace BasicSyntax.CommandLine

/-- An outcome of a run that succeeds, with what it writes to the output. -/
def Outcome.Returns (outcome : Outcome) (out : String) : Prop :=
  outcome.ending = .returned 0 ∧ outcome.output = out

/-- What the output shows of a program: nothing if it has no statement. -/
def shownText (mode : Mode) (stmts : List Node) : Except PrintFault String :=
  if stmts.isEmpty then .ok "" else (render mode stmts).map (· ++ "\n")

/-- A script, opened by its whole path, is shown as a text. -/
inductive Shows (mode : Mode) (limit : Option String) (path : String) :
    Except OpenFault (List UInt8) → String → Prop
  | script {bytes : List UInt8} {text : List Char} {n : Int} {stmts : List Node} {out : String} :
      '\x00' ∉ path.toList → Text.decodeUtf8 bytes = .ok text → callLimit limit = .ok n →
      Program.read (String.ofList (Text.unifyNewlines text)) = .ok stmts →
      shownText mode stmts = .ok out → Shows mode limit path (.ok bytes) out

/-! ## Outcomes -/

section

variable {mode : Mode} {least : Nat} {limit : Option String} {script path out : String}

theorem output_logged (least : Nat) (records : List LogRecord) (pieces : List Piece)
    (ending : Ending) :
    (Outcome.mk (logged least records ++ pieces) ending).output =
      (Outcome.mk pieces ending).output := by
  rw [logged, Outcome.output, Outcome.output]
  induction records.filter fun r => least ≤ r.level.weight with
  | nil => rfl
  | cons r records ih =>
      rw [List.map_cons, List.cons_append, List.map_cons, String.join_cons, String.empty_append]
      exact ih

/-- What is logged before anything else has no part in what is returned. -/
theorem returns_logged (least : Nat) (records : List LogRecord) (outcome : Outcome) :
    (Outcome.mk (logged least records ++ outcome.pieces) outcome.ending).Returns out ↔
      outcome.Returns out := by
  rw [Outcome.Returns, Outcome.Returns, output_logged]

/-- What ends in another way returns nothing. -/
theorem not_returns {outcome : Outcome} (h : outcome.ending ≠ .returned 0) :
    ¬ outcome.Returns out :=
  fun hreturns => h hreturns.1

theorem accepted_returns {stmts : List Node} :
    (accepted mode least stmts).Returns out ↔ shownText mode stmts = .ok out := by
  have hnone (records : List LogRecord) :
      (Outcome.mk (logged least records) (.returned 0)).output = "" := by
    have h := output_logged least records [] (.returned 0)
    rwa [List.append_nil] at h
  rw [accepted, shownText]
  cases stmts.isEmpty with
  | true =>
      rw [if_pos rfl, if_pos rfl, Outcome.Returns, hnone]
      exact ⟨fun h => congrArg _ h.2, fun h => ⟨rfl, Except.ok.inj h⟩⟩
  | false =>
      rw [if_neg Bool.false_ne_true, if_neg Bool.false_ne_true]
      cases render mode stmts with
      | error why => exact iff_of_false (not_returns nofun) nofun
      | ok text =>
          have hone : (Outcome.mk [Piece.out (text ++ "\n")] (.returned 0)).output =
              text ++ "\n" :=
            String.join_cons.trans String.append_empty
          dsimp only
          rw [Outcome.Returns, output_logged, hone]
          exact ⟨fun h => congrArg _ h.2, fun h => ⟨rfl, Except.ok.inj h⟩⟩

theorem runText_returns {limit : Int} {text : String} :
    (runText mode least limit script text).Returns out ↔
      ∃ stmts, Program.read text = .ok stmts ∧ shownText mode stmts = .ok out := by
  rw [runText]
  cases Program.read text with
  | error e =>
      refine iff_of_false (not_returns ?_) nofun
      cases e <;> exact nofun
  | ok stmts =>
      refine (returns_logged least _ (accepted mode least stmts)).trans
        (accepted_returns.trans ?_)
      exact ⟨fun h => ⟨stmts, rfl, h⟩, fun ⟨_, heq, h⟩ => Except.ok.inj heq ▸ h⟩

theorem runOpened_returns {opened : Except OpenFault (List UInt8)}
    (hpath : '\x00' ∉ path.toList) :
    (runOpened mode least limit script path opened).Returns out ↔
      Shows mode limit path opened out := by
  cases opened with
  | error fault => exact iff_of_false (not_returns nofun) nofun
  | ok bytes =>
      rw [runOpened]
      cases hdecode : Text.decodeUtf8 bytes with
      | error fault =>
          refine iff_of_false (not_returns nofun) ?_
          rintro ⟨-, htext, -⟩
          exact nomatch hdecode.symm.trans htext
      | ok text =>
          dsimp only
          cases hlimit : callLimit limit with
          | error fault =>
              refine iff_of_false (not_returns nofun) ?_
              rintro ⟨-, -, hn, -⟩
              exact nomatch hlimit.symm.trans hn
          | ok n =>
              refine runText_returns.trans ⟨?_, ?_⟩
              · rintro ⟨stmts, hread, hshown⟩
                exact .script hpath hdecode hlimit hread hshown
              · rintro ⟨-, htext, -, hread, hshown⟩
                obtain rfl := Except.ok.inj (hdecode.symm.trans htext)
                exact ⟨_, hread, hshown⟩

theorem runScript_returns {opened : Except OpenFault (List UInt8)} :
    (runScript mode least limit script path opened).Returns out ↔
      Shows mode limit path opened out := by
  rw [runScript]
  by_cases hpath : path.toList.contains '\x00' = true
  · rw [if_pos hpath]
    refine iff_of_false (not_returns nofun) ?_
    rintro ⟨hnul, -⟩
    exact hnul (List.contains_iff_mem.mp hpath)
  · rw [if_neg hpath]
    refine (returns_logged least _ (runOpened mode least limit script path opened)).trans ?_
    exact runOpened_returns fun hmem => hpath (List.contains_iff_mem.mpr hmem)

end

/-! ## Runs -/

/-- **SCRIPTS**: a run with a script returns 0 exactly if the level of the log is one and the
    script is shown, and then it has written to the output what the script is shown as. -/
theorem run_returns {arguments : List String} {options : Options} {script : String}
    (surroundings : Surroundings) (working : String) (tree : FileTree) (input out : String)
    (hread : readArguments arguments = .ok (.run options)) (hs : options.script = some script)
    (hne : script ≠ "") :
    (run arguments surroundings working tree input).Returns out ↔
      (∃ least, threshold (options.logLevel surroundings) = .ok least) ∧
        Shows options.showAs surroundings.limit (wholePath working script)
          (tree.open? (wholePath working script)) out := by
  have hgiven : ¬ script.isEmpty = true := fun h => hne (String.isEmpty_iff.mp h)
  rw [run, plan, hread]
  dsimp only
  cases threshold (options.logLevel surroundings) with
  | error fault => exact iff_of_false (not_returns nofun) fun h => nomatch h.1.choose_spec
  | ok least =>
      dsimp only
      rw [hs, Option.getD_some, if_neg hgiven]
      exact runScript_returns.trans ⟨fun h => ⟨⟨least, rfl⟩, h⟩, And.right⟩

end BasicSyntax.CommandLine
