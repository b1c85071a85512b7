import BasicSyntax.Proofs.CorrectPrefix
import BasicSyntax.Proofs.Fold
import BasicSyntax.Proofs.Node.Relocate
import BasicSyntax.Proofs.Token.Behind

/-! # Composition — a program is read line by line

    Behind the lines of a program the reader is where it was at the start, but for the lines it
    has read.  So a text behind them is read as by itself: its tokens are moved by the extent of
    the lines (`Tokens.ofText_append`), and reading moved tokens behind lines simulates reading
    the tokens themselves (`movedLikeness`).  What comes out are the statements of the lines with
    the moved ones of the text, or the error of the text, moved. -/

namespace BasicSyntax

/-! ## Reading moved tokens -/

/-- Points of a text when lines are put above it. -/
def behindLines (above : List Char) : Relocation := Option.map (Position.behind above)

namespace Parse

/-- Operands and operators that are related fold to nodes that are. -/
theorem runOf_rel {R : Node → Node → Prop} {O : Operator → Operator → Prop}
    (hO : ∀ {o o'}, O o o' → o.symbol = o'.symbol)
    (hjoin : ∀ {l l' o o' r r'}, R l l' → O o o' → R r r' → R (.binary l o r) (.binary l' o' r'))
    {before before' : List (Node × Operator)}
    (hbefore : List.Forall₂ (fun i i' => R i.1 i'.1 ∧ O i.2 i'.2) before before') :
    ∀ {n n' : Node}, R n n' → R (runOf before n) (runOf before' n') := by
  have hprepend : ∀ r r' : Node × List (Pair Node), R r.1 r'.1 → Fold.PairRel R O r.2 r'.2 →
      R (prepend before r).1 (prepend before' r').1 ∧
        Fold.PairRel R O (prepend before r).2 (prepend before' r').2 := by
    induction hbefore with
    | nil => exact fun _ _ hfirst hrest => ⟨hfirst, hrest⟩
    | cons hi _ ih => exact fun _ _ hfirst hrest => ih _ _ hi.1 (.cons ⟨hi.2, hfirst⟩ hrest)
  intro n n' hn
  obtain ⟨hfirst, hrest⟩ := hprepend (n, []) (n', []) hn .nil
  rw [runOf_eq, runOf_eq]
  exact Fold.resolveBy_rel hO hjoin hfirst hrest

/-- A moved literal is a literal with its point moved. -/
theorem literalOf_behind (above : List Char) (t : Token) :
    literalOf (t.behind above) = (literalOf t).relocate (behindLines above) := by
  rw [literalOf, literalOf]
  by_cases h : t.terminal = .number
  · rw [if_pos h, if_pos (show (t.behind above).terminal = .number from h)]
    rfl
  · rw [if_neg h, if_neg (show (t.behind above).terminal ≠ .number from h)]
    rfl

theorem paramsOf_map (g : Binder → Binder) (bs : List Binder) :
    paramsOf (bs.map g) = (paramsOf bs).map fun bs => bs.map g := by
  cases bs with
  | nil => rfl
  | cons b bs => exact congrArg some List.map_reverse.symm

end Parse

/-- Tokens moved behind lines, and what is built of them, behind the nodes of the lines. -/
def movedLikeness (above : List Char) (base : List Node) : Likeness where
  token t t' := t' = t.behind above
  place p p' := p' = p.behind above
  binder b b' := b' = b.relocate (behindLines above)
  operator o o' := o' = o.relocate (behindLines above)
  node n n' := n' = n.relocate (behindLines above)
  lines ns ns' := ns' = ns.map (Node.relocate (behindLines above)) ++ base
  terminal_eq := by
    rintro t _ rfl
    rfl
  token_place := by
    rintro t _ rfl -
    rfl
  token_binder := by
    rintro t _ rfl -
    rfl
  token_operator := by
    rintro t _ rfl -
    rfl
  token_literal := by
    rintro t _ rfl -
    exact Parse.literalOf_behind above t
  token_underline := by
    rintro t _ rfl -
    rfl
  null := rfl
  name := by
    rintro b _ rfl
    rfl
  negative := by
    rintro n _ rfl
    rw [Node.relocate]
  run := by
    intro before before' n n' hbefore hn
    refine Parse.runOf_rel (R := fun n n' : Node => n' = n.relocate (behindLines above))
      (O := fun o o' : Operator => o' = o.relocate (behindLines above)) ?_ ?_ hbefore hn
    · rintro o _ rfl
      rfl
    · rintro l _ o _ r _ rfl rfl rfl
      rw [Node.relocate]
  application := by
    rintro b _ ns ns' rfl hns
    rw [Node.relocate, Node.relocate, relocateAll_map, forall₂_image.mp hns]
  enclosed := by
    rintro ns ns' form hns
    rw [Node.relocate, relocateAll_map, forall₂_image.mp hns]
  function := by
    rintro p _ bs bs' n _ rfl hbs rfl
    rw [Node.relocate, relocateParams_names, forall₂_image.mp hbs]
    rfl
  conditional := by
    rintro c _ m _ rfl rfl
    rw [Node.relocate, relocateOption]
  conditionalElse := by
    rintro c _ m _ n _ rfl rfl rfl
    rw [Node.relocate, relocateOption]
  loop := by
    rintro c _ n _ rfl rfl
    rw [Node.relocate]
  binding := by
    rintro b _ bs bs' n _ form rfl hbs rfl
    rw [Node.relocate, forall₂_image.mp hbs, Parse.paramsOf_map]
  lines_cons := by
    rintro n _ ns _ rfl rfl
    rfl

namespace Parse

/-- States that are alike may end alike, or not for the same reason. -/
theorem finish_alike {L : Likeness} {s s' : State} (h : StateAlike L s s') {e : Expected}
    (hf : finish s = .error e) : finish s' = .error e := by
  have he := expected_alike h
  cases h with
  | stmt hc =>
      cases hc with
      | line _ => exact nomatch hf
      | item form fresh _ _ =>
          refine Eq.trans ?_ hf
          exact congrArg Except.error he.symm
  | _ => exact (congrArg Except.error he.symm).trans hf

end Parse

namespace Program

/-! ## Complete lines and a text behind them -/

/-- Behind a program the reader stands between lines, and nothing is left of its text. -/
theorem statements_reached {lines : List Char} {stmts : List Node}
    (h : statements lines = .ok stmts) : (Tokens.ofText lines).stray = none ∧
      Parse.run .start (Tokens.ofText lines).tokens = .ok (.stmt (.line stmts.reverse)) := by
  obtain ⟨hs, d, hts, hg, hd⟩ := (statements_iff lines stmts).mp h
  obtain ⟨reached, hr, hf⟩ := (Parse.run_derivation _ _).mpr ⟨d, hts, hg, hd⟩
  rw [Parse.finish_ok hf] at hr
  exact ⟨(splits_iff lines).mp hs, hr⟩

section

variable {lines : List Char} {stmts : List Node}

theorem tokens_behind (hlast : ∀ d ∈ lines.getLast?, isSeparator d = true)
    (h : statements lines = .ok stmts) (text : List Char) :
    (Tokens.ofText (lines ++ text)).tokens =
      (Tokens.ofText lines).tokens ++ (Tokens.ofText text).tokens.map (Token.behind lines) := by
  rw [Tokens.ofText_append hlast (statements_reached h).1]
  rfl

theorem stray_behind (hlast : ∀ d ∈ lines.getLast?, isSeparator d = true)
    (h : statements lines = .ok stmts) (text : List Char) :
    (Tokens.ofText (lines ++ text)).stray =
      (Tokens.ofText text).stray.map (Stray.behind lines) := by
  rw [Tokens.ofText_append hlast (statements_reached h).1]
  rfl

/-- Reading goes on behind the lines as it begins without them. -/
theorem run_behind (hlast : ∀ d ∈ lines.getLast?, isSeparator d = true)
    (h : statements lines = .ok stmts) (text : List Char) :
    Parse.RunAlike (movedLikeness lines stmts.reverse)
      (Parse.run .start (Tokens.ofText text).tokens)
      (Parse.run .start (Tokens.ofText (lines ++ text)).tokens) := by
  rw [tokens_behind hlast h text, Parse.run_append, (statements_reached h).2]
  exact Parse.run_alike (forall₂_image.mpr rfl) (.stmt (.line rfl))

/-- Behind complete lines a program is read as by itself, and moved. -/
theorem statements_behind (hlast : ∀ d ∈ lines.getLast?, isSeparator d = true)
    (h : statements lines = .ok stmts) {text : List Char} {more : List Node}
    (hmore : statements text = .ok more) :
    statements (lines ++ text) =
      .ok (stmts ++ more.map (Node.relocate (behindLines lines))) := by
  obtain ⟨hs, hr⟩ := statements_reached hmore
  have halike := run_behind hlast h text
  have hstray := stray_behind hlast h text
  rw [hs] at hstray
  rw [hr] at halike
  obtain ⟨reached, hrun, hreached⟩ := halike.ok
  refine statements_done hrun hstray ?_
  cases hreached with
  | stmt hc =>
      cases hc with
      | line hlines =>
          rw [show _ = _ from hlines, Parse.finish, List.reverse_append, List.map_reverse,
            List.reverse_reverse, List.reverse_reverse]

/-- Behind complete lines a text that is no program fails as by itself, with its error moved. -/
theorem statements_error_behind (hlast : ∀ d ∈ lines.getLast?, isSeparator d = true)
    (h : statements lines = .ok stmts) {text : List Char} {e : SyntaxError}
    (he : statements text = .error e) :
    ∃ e', statements (lines ++ text) = .error e' ∧ e'.cause = e.cause ∧
      e'.expected = e.expected ∧ e'.pos = e.pos.behind lines := by
  have halike := run_behind hlast h text
  have hstray := stray_behind hlast h text
  rcases statements_error he with ⟨refusal, hr, rfl⟩ | ⟨reached, stray, hr, hs, rfl⟩ |
    ⟨reached, expected, hr, hs, hf, rfl⟩
  · rw [hr] at halike
    obtain ⟨refusal', hrun, htoken, hexpected⟩ := halike.error
    have htoken : refusal'.token = refusal.token.behind lines := htoken
    refine ⟨_, statements_refused hrun, ?_, hexpected.symm, congrArg Token.pos htoken⟩
    show Cause.token refusal'.token.text = .token refusal.token.text
    rw [htoken]
    rfl
  · rw [hr] at halike
    rw [hs] at hstray
    obtain ⟨_, hrun, -⟩ := halike.ok
    exact ⟨_, statements_stray hrun hstray, rfl, rfl, rfl⟩
  · rw [hr] at halike
    rw [hs] at hstray
    obtain ⟨_, hrun, hreached⟩ := halike.ok
    -- without tokens the text would be a program
    have hne : (Tokens.ofText text).tokens ≠ [] := by
      intro hnil
      rw [hnil] at hr
      obtain rfl := Except.ok.inj hr
      exact nomatch hf
    have hlastToken := List.getLast?_eq_some_getLast hne
    have hlastBehind : (Tokens.ofText (lines ++ text)).tokens.getLast? =
        some (((Tokens.ofText text).tokens.getLast hne).behind lines) := by
      rw [tokens_behind hlast h, List.getLast?_append, List.getLast?_map, hlastToken]
      rfl
    refine ⟨_, statements_ended hrun hstray (Parse.finish_alike hreached hf), ?_⟩
    rw [endError, endError, hlastToken, hlastBehind]
    exact ⟨rfl, rfl, rfl⟩

end

/-- Moving tokens makes none of their numbers too long. -/
theorem longNumber?_behind (above : List Char) {ts us : List Token} (hts : longNumber? ts = none)
    (hus : longNumber? us = none) : longNumber? (ts ++ us.map (Token.behind above)) = none := by
  refine longNumber?_none (List.forall_mem_append.mpr ⟨longNumber?_short hts, ?_⟩)
  exact List.forall_mem_map.mpr (longNumber?_short hus)

/-- **COMPOSITION**: behind lines that are a program, each ended by a separator, a source is read
    as by itself.  If it is a program, so are both, and what is read are the statements of the
    lines with those of the source, the points of which are moved by the extent of the lines.  If
    it has a syntax error, both have the same one at the point moved likewise. -/
theorem read_append (lines source : String) (stmts : List Node)
    (hlast : ∀ c ∈ lines.toList.getLast?, isSeparator c = true)
    (hlines : read lines = .ok stmts) :
    (∀ more, read source = .ok more → read (lines ++ source) =
      .ok (stmts ++ more.map (Node.relocate (behindLines lines.toList)))) ∧
    ∀ e, read source = .error (.syntaxError e) →
      ∃ e', read (lines ++ source) = .error (.syntaxError e') ∧
        e'.report.message = e.report.message ∧ e'.report.expected = e.report.expected ∧
        e'.pos = e.pos.behind lines.toList := by
  obtain ⟨hl, hshort⟩ := (read_ok_iff lines stmts).mp hlines
  rw [complete_separated hlast] at hl hshort
  have hcomplete : complete (lines ++ source).toList =
      lines.toList ++ complete source.toList := by
    rw [String.toList_append]
    exact complete_append hlast source.toList
  constructor
  · intro more hmore
    obtain ⟨hs, hshort'⟩ := (read_ok_iff source more).mp hmore
    refine (read_ok_iff _ _).mpr ?_
    rw [hcomplete, tokens_behind hlast hl]
    exact ⟨statements_behind hlast hl hs, longNumber?_behind _ hshort hshort'⟩
  · intro e he
    rw [read_syntaxError_iff] at he
    obtain ⟨e', hs, hcause, hexpected, hpos⟩ := statements_error_behind hlast hl he
    refine ⟨e', ?_, ?_, ?_, hpos⟩
    · rw [read_syntaxError_iff, hcomplete]
      exact hs
    · exact congrArg Cause.message hcause
    · show (e'.report).expected = (e.report).expected
      rw [SyntaxError.report, SyntaxError.report, hexpected]
      rfl

/-- Behind a name and its separator, another name is read two columns further on, and so is a
    bracket that nothing opened. -/
theorem read_append_name :
    (∃ stmts more, read "a;" = .ok stmts ∧ read "b" = .ok more ∧
      read ("a;" ++ "b") = .ok (stmts ++ more.map (Node.relocate (behindLines "a;".toList)))) ∧
    ∃ e, read ("a;" ++ ")") = .error (.syntaxError e) ∧ e.pos = ⟨1, 3⟩ := by
  have hlast : ∀ c ∈ "a;".toList.getLast?, isSeparator c = true := by
    rintro c ⟨⟩
    rfl
  refine ⟨⟨[.binder ⟨"a", some ⟨1, 1⟩⟩], [.binder ⟨"b", some ⟨1, 1⟩⟩], rfl, rfl, ?_⟩, ?_⟩
  · exact (read_append "a;" "b" _ hlast rfl).1 _ rfl
  · obtain ⟨e, he, -, -, hpos⟩ := (read_append "a;" ")" _ hlast rfl).2 _ rfl
    exact ⟨e, he, hpos⟩

end Program

end BasicSyntax
