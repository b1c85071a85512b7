import BasicSyntax.Program
import BasicSyntax.Proofs.Grammar.Unique
import BasicSyntax.Proofs.Parse.Derivative
import BasicSyntax.Proofs.Token.Split

/-! # Reading — the programs are those the grammar derives

    A text is read in two steps, into tokens and from tokens into nodes.  The first succeeds
    where the text splits into terminals at all (`splits_iff`), the second where the tokens have
    a greedy derivation (`run_rest`), and there is at most one (`Derivation.unique`).  Together
    they say of every text what reading it gives. -/

namespace BasicSyntax

open Grammar

/-- **PARSING**: tokens are read to the end exactly if they have a greedy derivation, and what
    is read is its abstract syntax. -/
theorem Parse.run_derivation (ts : List Token) (out : List Node) :
    (∃ reached, run .start ts = .ok reached ∧ finish reached = .ok out) ↔
      ∃ d : Derivation, d.tokens = ts ∧ d.Greedy ∧ d.nodes = out := by
  rw [← run_rest]
  constructor
  · rintro ⟨d, hts, hg, hout⟩
    exact ⟨d, hts.symm, hg, hout.symm⟩
  · rintro ⟨d, hts, hg, hout⟩
    exact ⟨d, hts.symm, hg, hout.symm⟩

namespace Program

/-! ## Complete texts -/

/-- A text that ends in a separator is complete. -/
theorem complete_separated {text : List Char}
    (h : ∀ c ∈ text.getLast?, isSeparator c = true) : complete text = text := by
  cases hl : text.getLast? with
  | none =>
      rw [complete, hl, List.getLast?_eq_none_iff.mp hl]
  | some c => simp only [complete, hl, h c hl, if_true]

/-- A text that ends in another character is completed by a newline. -/
theorem complete_unseparated {text : List Char} {c : Char} (h : c ∈ text.getLast?)
    (hc : isSeparator c = false) : complete text = text ++ ['\n'] := by
  rw [complete, Option.mem_def.mp h]
  show (if isSeparator c = true then text else text ++ ['\n']) = _
  rw [hc]
  rfl

/-- Completing changes nothing or supplies a newline. -/
theorem complete_cases (text : List Char) :
    complete text = text ∧ (∀ c ∈ text.getLast?, isSeparator c = true) ∨
      complete text = text ++ ['\n'] ∧ ∃ c ∈ text.getLast?, isSeparator c = false := by
  cases hl : text.getLast? with
  | none => exact .inl ⟨complete_separated (by rw [hl]; exact nofun), nofun⟩
  | some c =>
      by_cases hc : isSeparator c = true
      · have hall : ∀ d ∈ some c, isSeparator d = true := by
          rintro d ⟨⟩
          exact hc
        exact .inl ⟨complete_separated (by rw [hl]; exact hall), hall⟩
      · have hno := Bool.eq_false_iff.mpr hc
        exact .inr ⟨complete_unseparated hl hno, c, rfl, hno⟩

/-- A newline is a separator at the end of any text. -/
theorem newline_last (text : List Char) :
    ∀ c ∈ (text ++ ['\n']).getLast?, isSeparator c = true := by
  rw [List.getLast?_concat]
  rintro c ⟨⟩
  rfl

/-- A complete text is empty or ends in a separator. -/
theorem complete_last (text : List Char) :
    ∀ c ∈ (complete text).getLast?, isSeparator c = true := by
  rcases complete_cases text with ⟨heq, h⟩ | ⟨heq, -⟩
  · rw [heq]
    exact h
  · rw [heq]
    exact newline_last text

/-- Behind complete lines a text is completed as it is by itself. -/
theorem complete_append {lines : List Char} (h : ∀ c ∈ lines.getLast?, isSeparator c = true)
    (text : List Char) : complete (lines ++ text) = lines ++ complete text := by
  rcases complete_cases text with ⟨heq, hlast⟩ | ⟨heq, c, hc, hno⟩
  · rw [heq]
    refine complete_separated ?_
    rw [List.getLast?_append]
    cases hl : text.getLast? with
    | none => exact h
    | some c =>
        rintro d ⟨⟩
        exact hlast c hl
  · rw [heq, ← List.append_assoc]
    refine complete_unseparated (c := c) ?_ hno
    rw [List.getLast?_append, Option.mem_def.mp hc]
    rfl

/-! ## The ends of reading -/

section

variable {text : List Char} {reached : Parse.State}

theorem statements_refused {refusal : Parse.Refusal}
    (hr : Parse.run .start (Tokens.ofText text).tokens = .error refusal) :
    statements text = .error (refusalError text refusal) := by
  simp only [statements, hr]

theorem statements_stray {stray : Stray}
    (hr : Parse.run .start (Tokens.ofText text).tokens = .ok reached)
    (hs : (Tokens.ofText text).stray = some stray) :
    statements text = .error (strayError text stray) := by
  simp only [statements, hr, hs]

theorem statements_ended {expected : Parse.Expected}
    (hr : Parse.run .start (Tokens.ofText text).tokens = .ok reached)
    (hs : (Tokens.ofText text).stray = none) (hf : Parse.finish reached = .error expected) :
    statements text = .error (endError text (Tokens.ofText text).tokens expected) := by
  simp only [statements, hr, hs, hf]

theorem statements_done {stmts : List Node}
    (hr : Parse.run .start (Tokens.ofText text).tokens = .ok reached)
    (hs : (Tokens.ofText text).stray = none) (hf : Parse.finish reached = .ok stmts) :
    statements text = .ok stmts := by
  simp only [statements, hr, hs, hf]

/-- The three ways in which a text is no program. -/
theorem statements_error {e : SyntaxError} (h : statements text = .error e) :
    (∃ refusal, Parse.run .start (Tokens.ofText text).tokens = .error refusal ∧
      e = refusalError text refusal) ∨
    (∃ reached stray, Parse.run .start (Tokens.ofText text).tokens = .ok reached ∧
      (Tokens.ofText text).stray = some stray ∧ e = strayError text stray) ∨
    ∃ reached expected, Parse.run .start (Tokens.ofText text).tokens = .ok reached ∧
      (Tokens.ofText text).stray = none ∧ Parse.finish reached = .error expected ∧
        e = endError text (Tokens.ofText text).tokens expected := by
  cases hr : Parse.run .start (Tokens.ofText text).tokens with
  | error refusal =>
      rw [statements_refused hr] at h
      exact .inl ⟨refusal, rfl, (Except.error.inj h).symm⟩
  | ok reached =>
      cases hs : (Tokens.ofText text).stray with
      | some stray =>
          rw [statements_stray hr hs] at h
          exact .inr (.inl ⟨reached, stray, rfl, rfl, (Except.error.inj h).symm⟩)
      | none =>
          cases hf : Parse.finish reached with
          | ok stmts =>
              rw [statements_done hr hs hf] at h
              exact nomatch h
          | error expected =>
              rw [statements_ended hr hs hf] at h
              exact .inr (.inr ⟨reached, expected, rfl, rfl, hf, (Except.error.inj h).symm⟩)

end

/-- A text whose last line is complete is a program exactly if it splits into terminals that
    have a greedy derivation. -/
theorem statements_iff (text : List Char) (out : List Node) :
    statements text = .ok out ↔ Splits text ∧
      ∃ d : Derivation, d.tokens = (Tokens.ofText text).tokens ∧ d.Greedy ∧ d.nodes = out := by
  rw [splits_iff, ← Parse.run_derivation]
  constructor
  · intro h
    cases hr : Parse.run .start (Tokens.ofText text).tokens with
    | error refusal =>
        rw [statements_refused hr] at h
        exact nomatch h
    | ok reached =>
        cases hs : (Tokens.ofText text).stray with
        | some stray =>
            rw [statements_stray hr hs] at h
            exact nomatch h
        | none =>
            cases hf : Parse.finish reached with
            | error expected =>
                rw [statements_ended hr hs hf] at h
                exact nomatch h
            | ok stmts =>
                rw [statements_done hr hs hf] at h
                exact ⟨rfl, reached, rfl, hf.trans (congrArg _ (Except.ok.inj h))⟩
  · rintro ⟨hs, reached, hr, hf⟩
    exact statements_done hr hs hf

theorem read_failed {source : String} {e : SyntaxError}
    (h : statements (complete source.toList) = .error e) :
    read source = .error (.syntaxError e) := by
  simp only [read, h]

theorem read_long {source : String} {stmts : List Node} {digits : Nat}
    (h : statements (complete source.toList) = .ok stmts)
    (hl : longNumber? (Tokens.ofText (complete source.toList)).tokens = some digits) :
    read source = .error (.longNumber digits) := by
  simp only [read, h, hl]

theorem read_done {source : String} {stmts : List Node}
    (h : statements (complete source.toList) = .ok stmts)
    (hl : longNumber? (Tokens.ofText (complete source.toList)).tokens = none) :
    read source = .ok stmts := by
  simp only [read, h, hl]

/-- Reading gives nodes exactly where the completed text has them and no number is too long. -/
theorem read_ok_iff (source : String) (stmts : List Node) :
    read source = .ok stmts ↔ statements (complete source.toList) = .ok stmts ∧
      longNumber? (Tokens.ofText (complete source.toList)).tokens = none := by
  constructor
  · intro h
    cases hs : statements (complete source.toList) with
    | error e =>
        rw [read_failed hs] at h
        exact nomatch h
    | ok stmts' =>
        cases hl : longNumber? (Tokens.ofText (complete source.toList)).tokens with
        | some digits =>
            rw [read_long hs hl] at h
            exact nomatch h
        | none =>
            rw [read_done hs hl] at h
            exact ⟨congrArg Except.ok (Except.ok.inj h), rfl⟩
  · exact fun h => read_done h.1 h.2

/-- Reading gives a syntax error exactly where there is one in the completed text. -/
theorem read_syntaxError_iff (source : String) (e : SyntaxError) :
    read source = .error (.syntaxError e) ↔
      statements (complete source.toList) = .error e := by
  constructor
  · intro h
    cases hs : statements (complete source.toList) with
    | error e' =>
        rw [read_failed hs] at h
        rw [ReadError.syntaxError.inj (Except.error.inj h)]
    | ok stmts =>
        cases hl : longNumber? (Tokens.ofText (complete source.toList)).tokens with
        | some digits =>
            rw [read_long hs hl] at h
            exact nomatch h
        | none =>
            rw [read_done hs hl] at h
            exact nomatch h
  · exact read_failed

/-- Reading fails for a number exactly where the completed text has nodes and a number is too
    long. -/
theorem read_longNumber_iff (source : String) (digits : Nat) :
    read source = .error (.longNumber digits) ↔
      (∃ stmts, statements (complete source.toList) = .ok stmts) ∧
        longNumber? (Tokens.ofText (complete source.toList)).tokens = some digits := by
  constructor
  · intro h
    cases hs : statements (complete source.toList) with
    | error e =>
        rw [read_failed hs] at h
        exact nomatch h
    | ok stmts =>
        cases hl : longNumber? (Tokens.ofText (complete source.toList)).tokens with
        | some digits' =>
            rw [read_long hs hl] at h
            exact ⟨⟨stmts, rfl⟩, congrArg some (ReadError.longNumber.inj (Except.error.inj h))⟩
        | none =>
            rw [read_done hs hl] at h
            exact nomatch h
  · rintro ⟨⟨stmts, hs⟩, hl⟩
    exact read_long hs hl

/-- Where a syntax error is, if what reading gave is one. -/
def faultPoint? : Except ReadError (List Node) → Option Position
  | .error (.syntaxError e) => some e.pos
  | _ => none

theorem read_fault {source : String} {p : Position} (h : faultPoint? (read source) = some p) :
    ∃ e, read source = .error (.syntaxError e) ∧ e.pos = p := by
  cases hread : read source with
  | ok stmts =>
      rw [hread] at h
      exact nomatch h
  | error e =>
      rw [hread] at h
      cases e with
      | longNumber digits => exact nomatch h
      | syntaxError e => exact ⟨e, rfl, Option.some.inj h⟩

theorem read_isOk {source : String} (h : (read source).isOk = true) :
    ∃ stmts, read source = .ok stmts := by
  cases hread : read source with
  | ok stmts => exact ⟨stmts, rfl⟩
  | error e =>
      rw [hread] at h
      exact nomatch h

/-! ## Long numbers -/

/-- No number is too long. -/
theorem longNumber?_none {ts : List Token}
    (h : ∀ t ∈ ts, t.terminal = .number → t.text.length ≤ Text.digitLimit) :
    longNumber? ts = none := by
  rw [longNumber?, Option.map_eq_none_iff, List.find?_eq_none]
  intro t ht hlong
  have hlong' := of_decide_eq_true hlong
  exact absurd (h t ht hlong'.1) (Nat.not_le.mpr hlong'.2)

/-- Every number is short enough. -/
theorem longNumber?_short {ts : List Token} (h : longNumber? ts = none) :
    ∀ t ∈ ts, t.terminal = .number → t.text.length ≤ Text.digitLimit := by
  intro t ht hk
  rw [longNumber?, Option.map_eq_none_iff, List.find?_eq_none] at h
  refine Nat.not_lt.mp fun hlt => h t ht ?_
  exact decide_eq_true ⟨hk, hlt⟩

/-- Some number is too long. -/
theorem longNumber?_some {ts : List Token}
    (h : ∃ t ∈ ts, t.terminal = .number ∧ Text.digitLimit < t.text.length) :
    ∃ digits, Text.digitLimit < digits ∧ longNumber? ts = some digits := by
  obtain ⟨t, ht, hlong⟩ := h
  cases hf : ts.find? fun t => t.terminal = .number ∧ Text.digitLimit < t.text.length with
  | none => exact absurd (decide_eq_true hlong) (List.find?_eq_none.mp hf t ht)
  | some t' =>
      have hlong' : t'.terminal = .number ∧ Text.digitLimit < t'.text.length :=
        of_decide_eq_true (List.find?_some hf :)
      exact ⟨t'.text.length, hlong'.2, congrArg (Option.map _) hf⟩

/-! ## Programs and derivations -/

/-- Behind a name with arguments nothing comes that could be one more argument. -/
theorem maximal_chain : ∀ (d : Chain) {next : List Token}, d.Greedy next → ChainEnds next
  | .done, _, h => h
  | .group _ _ _ rest, _, h => maximal_chain rest h.2
  | .enclosed _ rest, _, h => maximal_chain rest h.2
  | .word _ rest, _, h => maximal_chain rest h

/-- A cluster behind a condition that is a name, with arguments or without, begins with a minus
    or with `fun`. -/
theorem cluster_behind_applied (named : Leaf [.identifier]) (chain : Chain) (cluster : Cluster)
    {next : List Token} (hp : (Primary.applied named chain).Greedy (cluster.tokens ++ next))
    (hc : cluster.Greedy next) :
    ∃ t ts, cluster.tokens ++ next = t :: ts ∧
      (t.terminal = .minus ∨ t.terminal = .funWord) := by
  obtain ⟨t, ts, heq, hm⟩ := cluster.first hc
  have hstop : t.terminal ∉ postfixSorts := by
    have h := maximal_chain chain hp
    rw [heq] at h
    exact h
  -- of all that a cluster begins with only these two begin no argument
  have hrest : ∀ k ∈ Parse.Expected.cluster, k ∉ postfixSorts → k = .minus ∨ k = .funWord := by
    decide
  exact ⟨t, ts, heq, hrest t.terminal hm hstop⟩

/-- **READING**: a text is refused exactly if it does not split into terminals or its tokens
    have no greedy derivation.  Otherwise the derivation is unique, and the nodes that are read
    are its abstract syntax, unless one of its numbers is too long to be read.  Greediness asks
    of a condition that is a name, with arguments or without, that the cluster behind it begins
    with a minus or with `fun`. -/
theorem read_derivation (source : String) :
    let text := complete source.toList
    let tokens := (Tokens.ofText text).tokens
    ((∃ e, read source = .error (.syntaxError e)) ↔
      ¬ Splits text ∨ ¬ ∃ d : Derivation, d.tokens = tokens ∧ d.Greedy) ∧
    (∀ d : Derivation, Splits text → d.tokens = tokens → d.Greedy →
      (∀ d' : Derivation, d'.tokens = tokens → d'.Greedy → d' = d) ∧
      ((∀ t ∈ tokens, t.terminal = .number → t.text.length ≤ Text.digitLimit) →
        read source = .ok d.nodes) ∧
      ((∃ t ∈ tokens, t.terminal = .number ∧ Text.digitLimit < t.text.length) →
        ∃ digits, Text.digitLimit < digits ∧ read source = .error (.longNumber digits))) ∧
    ∀ (named : Leaf [.identifier]) (chain : Chain) (cluster : Cluster) (next : List Token),
      (Primary.applied named chain).Greedy (cluster.tokens ++ next) → cluster.Greedy next →
        ∃ t ts, cluster.tokens ++ next = t :: ts ∧
          (t.terminal = .minus ∨ t.terminal = .funWord) := by
  intro text tokens
  -- what may still go wrong behind this is that a number is too long
  have hok : ∀ d : Derivation, Splits text → d.tokens = tokens → d.Greedy →
      statements text = .ok d.nodes := by
    intro d hs ht hg
    exact (statements_iff text d.nodes).mpr ⟨hs, d, ht, hg, rfl⟩
  refine ⟨?_, ?_, fun named chain cluster next => cluster_behind_applied named chain cluster⟩
  · constructor
    · rintro ⟨e, he⟩
      rw [read_syntaxError_iff] at he
      refine Classical.not_and_iff_not_or_not.mp ?_
      rintro ⟨hs, d, ht, hg⟩
      rw [hok d hs ht hg] at he
      exact nomatch he
    · intro hno
      cases hst : statements text with
      | error e => exact ⟨e, read_failed hst⟩
      | ok stmts =>
          obtain ⟨hs, d, ht, hg, -⟩ := (statements_iff text stmts).mp hst
          exact absurd ⟨d, ht, hg⟩ (hno.resolve_left fun h => h hs)
  · intro d hs ht hg
    have hst := hok d hs ht hg
    refine ⟨?_, ?_, ?_⟩
    · intro d' ht' hg'
      exact Derivation.unique d' d (ht'.trans ht.symm) hg' hg
    · intro hshort
      exact read_done hst (longNumber?_none hshort)
    · intro hlong
      obtain ⟨digits, hlt, hl⟩ := longNumber?_some hlong
      exact ⟨digits, hlt, read_long hst hl⟩

/-- The derivation of a line that is a number. -/
def numberLine (number : Leaf [.number]) (separator : Leaf [.separator]) : Derivation :=
  [⟨some (.cluster (.expr (.run (.last none
    (.literal ⟨number.token, number.within (by decide)⟩))))), separator⟩]

/-- A line that is a number is read as one, if the number is not too long. -/
theorem scan_number (digits : List Char) (h : Terminal.number.Writes digits) :
    Tokens.ofText (digits ++ ['\n']) =
      ⟨[⟨.number, String.ofList digits, 0, .start⟩,
        ⟨.separator, "\n", 0 + digits.length, Position.start.afterAll digits⟩], none⟩ := by
  have hline : Scan (0 + digits.length) (Position.start.afterAll digits) (['\n'] ++ [])
      ((Tokens.mk [] none).prepend
        [⟨.separator, "\n", 0 + digits.length, Position.start.afterAll digits⟩]) :=
    .token (by decide) (show ['\n'] ∈ separatorTexts by decide) trivial (.done _ _)
  have hend : Terminal.number.Ends digits (['\n'] ++ []) := rfl
  exact (scan_iff ..).mp (.token (by decide) h hend hline)

/-- A number of one digit is read, and one of 4301 digits is refused for its length. -/
theorem read_derivation_number :
    (∃ d : Derivation, read "7" = .ok d.nodes) ∧
    ∃ digits, Text.digitLimit < digits ∧
      read (String.ofList (List.replicate 4301 '7')) = .error (.longNumber digits) := by
  have hwrites : ∀ n, Terminal.number.Writes (List.replicate (n + 1) '7') := by
    intro n
    refine ⟨List.cons_ne_nil _ _, fun c hc => ?_⟩
    rw [List.eq_of_mem_replicate hc]
    rfl
  have hcomplete : ∀ n, complete (String.ofList (List.replicate (n + 1) '7')).toList =
      List.replicate (n + 1) '7' ++ ['\n'] := by
    intro n
    rw [String.toList_ofList, complete, List.replicate_succ']
    simp [isSeparator]
  have hd : ∀ n, ∃ d : Derivation,
      d.tokens = (Tokens.ofText (List.replicate (n + 1) '7' ++ ['\n'])).tokens ∧ d.Greedy := by
    intro n
    rw [scan_number _ (hwrites n)]
    exact ⟨numberLine ⟨_, List.mem_singleton.mpr rfl⟩ ⟨_, List.mem_singleton.mpr rfl⟩, rfl,
      fun s hs => by rw [← Option.some.inj hs]; trivial, trivial⟩
  have hs : ∀ n, Splits (List.replicate (n + 1) '7' ++ ['\n']) := by
    intro n
    rw [splits_iff, scan_number _ (hwrites n)]
  refine ⟨?_, ?_⟩
  · obtain ⟨d, ht, hg⟩ := hd 0
    have h := (read_derivation (String.ofList (List.replicate 1 '7'))).2.1 d
    rw [hcomplete 0] at h
    refine ⟨d, (h (hs 0) ht hg).2.1 ?_⟩
    rw [scan_number _ (hwrites 0)]
    intro t ht hk
    rcases List.mem_cons.mp ht with rfl | ht
    · decide
    · rw [List.mem_singleton.mp ht] at hk
      exact nomatch hk
  -- the text is never spelled out: its derivation is known for any number of digits
  · obtain ⟨d, ht, hg⟩ := hd 4300
    have h := (read_derivation (String.ofList (List.replicate 4301 '7'))).2.1 d
    rw [hcomplete 4300] at h
    refine (h (hs 4300) ht hg).2.2 ?_
    rw [scan_number _ (hwrites 4300)]
    refine ⟨_, List.mem_cons_self .., rfl, ?_⟩
    rw [String.length_ofList, List.length_replicate]
    decide

end Program

end BasicSyntax
