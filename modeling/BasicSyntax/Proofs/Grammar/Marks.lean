import BasicSyntax.Proofs.Grammar.Shape
import BasicSyntax.Proofs.Node.Marks

/-! # Marks of what is read — in the order of the tokens, at their points

    Some tokens stand in the tree as a mark: names, numbers, strings, underlines, `fun` and
    operators (`Token.mark?`).  The marks of a derivation are among the marks of its tokens, in
    the same order and each at most once (`Statement.marks_within` and its siblings); not all of
    them are there, for a minus before an operand has no operator in the tree.  The scanner puts
    every token where it stands (`Token.placed`), at ever later points (`Token.ordered`), and so
    the marks of a program stand in its source in the order of the source
    (`Program.read_marks`). -/

namespace BasicSyntax

open Text

/-- The mark that a token is in a tree, if it is one. -/
def Token.mark? (t : Token) : Option Placed :=
  match t.terminal with
  | .identifier => some (.name t.text, some t.pos)
  | .number => some (.number (Mark.digitsValue t.text.toList), some t.pos)
  | .string => some (.string (readLiteral t.text), some t.pos)
  | .underline => some (.underline, some t.pos)
  | .funWord => some (.function, some t.pos)
  | .operator | .minus => some (.operator ((Symbol.ofText? t.text).getD .dummy), some t.pos)
  | _ => none

/-- The marks that tokens are. -/
def tokenMarks (ts : List Token) : List Placed := ts.filterMap Token.mark?

theorem tokenMarks_append (ts us : List Token) :
    tokenMarks (ts ++ us) = tokenMarks ts ++ tokenMarks us := List.filterMap_append

theorem tokenMarks_cons {t : Token} {m : Placed} (h : t.mark? = some m) (ts : List Token) :
    tokenMarks (t :: ts) = m :: tokenMarks ts := List.filterMap_cons_some h

/-- Marks are among those of tokens, in their order. -/
def Within (ms : List Placed) (ts : List Token) : Prop := ms.Sublist (tokenMarks ts)

namespace Within

variable {ms ns : List Placed} {ts us : List Token} {t : Token} {m : Placed}

theorem nil (ts : List Token) : Within [] ts := List.nil_sublist _

/-- A token may go without a mark. -/
theorem skip (h : Within ms ts) (t : Token) : Within ms (t :: ts) :=
  List.Sublist.trans h (List.Sublist.filterMap _ (List.sublist_cons_self t ts))

theorem mark (ht : t.mark? = some m) (h : Within ms ts) : Within (m :: ms) (t :: ts) := by
  unfold Within
  rw [tokenMarks_cons ht]
  exact h.cons_cons m

theorem append (h : Within ms ts) (h' : Within ns us) : Within (ms ++ ns) (ts ++ us) := by
  unfold Within
  rw [tokenMarks_append]
  exact List.Sublist.append h h'

/-- Tokens in front may go without marks. -/
theorem behind (h : Within ms us) (ts : List Token) : Within ms (ts ++ us) :=
  (nil ts).append h

/-- Tokens at the end may go without marks. -/
theorem before (h : Within ms ts) (us : List Token) : Within ms (ts ++ us) := by
  have h' := h.append (nil us)
  rw [List.append_nil] at h'
  exact h'

end Within

namespace Grammar

/-! ## Single tokens -/

theorem mark_name (leaf : Leaf [.identifier]) :
    leaf.token.mark? = some (Parse.binderOf leaf.token).mark := by
  rw [Token.mark?, List.mem_singleton.mp leaf.fits]
  rfl

theorem mark_operator (leaf : Leaf operatorSorts) :
    leaf.token.mark? = some (Parse.operatorOf leaf.token).mark := by
  rcases List.mem_cons.mp leaf.fits with h | h
  · rw [Token.mark?, h]
    rfl
  · rw [Token.mark?, List.mem_singleton.mp h]
    rfl

theorem within_literal {t : Token} (h : t.terminal ∈ literalSorts) :
    Within (Parse.literalOf t).marks [t] := by
  rcases List.mem_cons.mp h with h | h
  · rw [Parse.literalOf, if_pos h]
    exact .mark (by rw [Token.mark?, h]; rfl) (.nil _)
  · have h := List.mem_singleton.mp h
    rw [Parse.literalOf, if_neg (by rw [h]; decide)]
    exact .mark (by rw [Token.mark?, h]) (.nil _)

theorem within_word (leaf : Leaf wordSorts) : Within (wordNode leaf.token).marks [leaf.token] := by
  have hfits := leaf.fits
  simp only [wordSorts, List.mem_cons, List.not_mem_nil, or_false] at hfits
  unfold wordNode
  rcases hfits with h | h | h | h
  · rw [h]
    exact .mark (by rw [Token.mark?, h]; rfl) (.nil _)
  · rw [h]
    exact within_literal (by rw [h]; decide)
  · rw [h]
    exact within_literal (by rw [h]; decide)
  · rw [h]
    exact .mark (by rw [Token.mark?, h]) (.nil _)

theorem within_names : ∀ leaves : List (Leaf [.identifier]),
    Within ((names leaves).map Binder.mark) (leafTokens leaves) := by
  intro leaves
  induction leaves with
  | nil => exact .nil _
  | cons leaf leaves ih => exact .mark (mark_name leaf) ih

/-- A sign before an operand is no mark. -/
theorem signed_marks {sorts : List Terminal} (sign : Option (Leaf sorts)) (n : Node) :
    (signed sign n).marks = n.marks := by
  cases sign with
  | none => rfl
  | some _ =>
      show (Node.negative n).marks = n.marks
      rw [Node.marks]

/-- Arguments come behind the name, and a name without any is by itself. -/
theorem application_marks (b : Binder) (arguments : List Node) :
    (applicationNode b arguments).marks = b.mark :: marksOf arguments := by
  cases arguments with
  | nil => rfl
  | cons n ns => rfl

/-! ## Derivations -/

mutual

theorem Statement.marks_within : ∀ d : Statement, Within d.node.marks d.tokens
  | .choice ifWord condition thenBlock => by
      have h := (condition.marks_within.append thenBlock.marks_within).skip ifWord.token
      rw [← List.append_nil thenBlock.node.marks] at h
      exact h
  | .choiceElse ifWord condition thenBlock elseWord elseBlock => by
      have h := thenBlock.marks_within.append (elseBlock.marks_within.skip elseWord.token)
      exact (condition.marks_within.append h).skip ifWord.token
  | .loop whileWord condition body => (condition.marks_within.append body.marks_within).skip _
  | .binding letWord macroWord named params equals codes => by
      have hparams : (paramList (names params)).getD [] = names params := by
        cases params <;> rfl
      have hcodes := (within_names params).append (codes.marks_within.skip equals.token)
      show Within (_ :: (((paramList (names params)).getD []).map Binder.mark ++ _)) _
      rw [hparams]
      exact ((hcodes.mark (mark_name named)).behind _).skip _
  | .cluster cluster => cluster.marks_within

theorem Cluster.marks_within : ∀ d : Cluster, Within d.node.marks d.tokens
  | .expr expr => expr.marks_within
  | .enclosed enclosed => enclosed.marks_within

theorem Enclosed.marks_within : ∀ d : Enclosed, Within d.node.marks d.tokens
  | .make _ _ items _ => (items.marks_within.before _).skip _

theorem Items.marks_within : ∀ d : Items, Within (marksOf d.nodes) d.tokens
  | .empty => .nil _
  | .last statement => by
      have h := statement.marks_within
      rw [← List.append_nil statement.node.marks] at h
      exact h
  | .skip separator rest => rest.marks_within.skip _
  | .cons statement separator rest => statement.marks_within.append (rest.marks_within.skip _)

theorem Expr.marks_within : ∀ d : Expr, Within d.node.marks d.tokens
  | .run run => by
      show Within (resolve _ _).marks _
      rw [resolve_marks]
      exact run.marks_within
  | .function funWord param params arrow body => by
      have hfun : funWord.token.mark? = some (.function, some funWord.token.pos) := by
        rw [Token.mark?, List.mem_singleton.mp funWord.fits]
      show Within (_ :: (paramMarks ((names (param :: params)).map fun b => (b, none)) ++ _)) _
      rw [paramMarks_names]
      exact ((within_names (param :: params)).append (body.marks_within.skip _)).mark hfun

theorem Run.marks_within : ∀ d : Run, Within
    (d.operands.1.marks ++ Fold.pairRow Node.marks Operator.mark d.operands.2) d.tokens
  | .last sign primary => by
      show Within ((signed sign primary.node).marks ++ []) _
      rw [signed_marks, List.append_nil]
      exact primary.marks_within.behind _
  | .cons sign primary op rest => by
      show Within ((signed sign primary.node).marks ++
        ((Parse.operatorOf op.token).mark :: (rest.operands.1.marks) ++ _)) _
      rw [signed_marks]
      exact (primary.marks_within.append (rest.marks_within.mark (mark_operator op))).behind _

theorem Primary.marks_within : ∀ d : Primary, Within d.node.marks d.tokens
  | .group _ expr _ => (expr.marks_within.before _).skip _
  | .literal token => within_literal token.fits
  | .applied name chain => by
      show Within (applicationNode _ _).marks _
      rw [application_marks]
      exact chain.marks_within.mark (mark_name name)

theorem Chain.marks_within : ∀ d : Chain, Within (marksOf d.nodes) d.tokens
  | .done => .nil _
  | .group _ expr _ rest => (expr.marks_within.append (rest.marks_within.skip _)).skip _
  | .enclosed enclosed rest => enclosed.marks_within.append rest.marks_within
  | .word token rest => (within_word token).append rest.marks_within

end

theorem Line.marks_within (line : Line) : Within line.node.marks line.tokens := by
  obtain ⟨statement, separator⟩ := line
  cases statement with
  | none => exact .nil _
  | some statement => exact statement.marks_within.before _

/-- The marks of a program are among those of its tokens, in their order. -/
theorem Derivation.marks_within (d : Derivation) : Within (marksOf d.nodes) d.tokens := by
  induction d with
  | nil => exact .nil _
  | cons line d ih => exact line.marks_within.append ih

end Grammar

/-! ## Where marks stand -/

/-- A token that the scanner made writes its mark. -/
theorem Token.mark_written {t : Token} (h : t.terminal.Writes t.text.toList) {m : Placed}
    (hm : t.mark? = some m) : m.1.WrittenAs t.text.toList ∧ m.1.terminal = t.terminal ∧
      m.2 = some t.pos := by
  unfold Token.mark? at hm
  -- the texts that operators have are looked up one by one
  have htable : ∀ u ∈ ['-'] :: operatorTexts, ∃ s ∈ Symbol.all,
      Symbol.ofText? (String.ofList u) = some s ∧ u = s.text.toList ∧ s ≠ .dummy ∧
        (Mark.operator s).terminal = if u = ['-'] then .minus else .operator := by decide
  cases hk : t.terminal with
  | identifier =>
      rw [hk] at h hm
      obtain rfl := Option.some.inj hm
      exact ⟨⟨h, rfl⟩, rfl, rfl⟩
  | number =>
      rw [hk] at h hm
      obtain rfl := Option.some.inj hm
      exact ⟨⟨h, rfl⟩, rfl, rfl⟩
  | string =>
      rw [hk] at h hm
      obtain rfl := Option.some.inj hm
      exact ⟨⟨h, by rw [String.ofList_toList]⟩, rfl, rfl⟩
  | underline =>
      rw [hk] at h hm
      obtain rfl := Option.some.inj hm
      exact ⟨(Option.some.inj h).symm, rfl, rfl⟩
  | funWord =>
      rw [hk] at h hm
      obtain rfl := Option.some.inj hm
      exact ⟨(Option.some.inj h).symm, rfl, rfl⟩
  | operator =>
      rw [hk] at h hm
      obtain rfl := Option.some.inj hm
      obtain ⟨s, -, hs, hu, hne, hterm⟩ := htable _ (List.mem_cons_of_mem _ h)
      rw [String.ofList_toList] at hs
      rw [hs]
      have hminus : t.text.toList ≠ ['-'] := by
        intro heq
        exact absurd (heq ▸ h) (show ['-'] ∉ operatorTexts by decide)
      rw [if_neg hminus] at hterm
      exact ⟨⟨hu, hne⟩, hterm, rfl⟩
  | minus =>
      rw [hk] at h hm
      obtain rfl := Option.some.inj hm
      obtain ⟨s, -, hs, hu, hne, hterm⟩ := htable ['-'] (List.mem_cons_self ..)
      have htext : t.text.toList = ['-'] := (Option.some.inj h).symm
      rw [← htext, String.ofList_toList] at hs
      rw [hs, htext]
      exact ⟨⟨hu, hne⟩, hterm, rfl⟩
  | _ =>
      rw [hk] at hm
      exact nomatch hm

/-- What writes a mark in a completed text writes it in the text itself. -/
theorem Mark.WrittenAs.in_source {m : Mark} {text above w below : List Char}
    (h : m.WrittenAs w) (hne : w ≠ []) (he : m.terminal.Ends w below)
    (heq : Program.complete text = above ++ (w ++ below)) : m.StandsIn text (point above) := by
  rcases Program.complete_cases text with ⟨hc, -⟩ | ⟨hc, -⟩
  · exact ⟨above, w, below, hc.symm.trans heq, rfl, h, he⟩
  · rw [hc] at heq
    rcases List.eq_nil_or_concat below with hnil | ⟨below', c, hconcat⟩
    -- the newline that was supplied is no part of the mark
    · obtain ⟨w', c, hw⟩ := (List.eq_nil_or_concat w).resolve_left hne
      rw [hnil, hw, List.append_nil, List.concat_eq_append, ← List.append_assoc] at heq
      have hlast := h.unseparated c (by rw [hw, List.concat_eq_append, List.getLast?_concat]; rfl)
      obtain ⟨-, hcons⟩ := List.append_inj' heq rfl
      rw [← (List.cons.inj hcons).1] at hlast
      exact nomatch hlast
    · rw [hconcat, List.concat_eq_append, ← List.append_assoc, ← List.append_assoc] at heq
      obtain ⟨htext, hcons⟩ := List.append_inj' heq rfl
      refine ⟨above, w, below', htext.trans (List.append_assoc ..), rfl, h, ?_⟩
      rw [hconcat, List.concat_eq_append] at he
      cases below' with
      | nil => exact Terminal.ends_nil _ w
      | cons d below' => exact Terminal.ends_head below' he

namespace Program

/-- What is read has its marks from the tokens of its source. -/
theorem read_within {source : String} {stmts : List Node} (h : read source = .ok stmts) :
    Within (marksOf stmts) (Tokens.ofText (complete source.toList)).tokens := by
  obtain ⟨d, hts, -, rfl, -⟩ := read_derived h
  rw [← hts]
  exact d.marks_within

/-- **MARKS STAND IN THE SOURCE**: every name, number, text, underline, function and operator of
    what is read has a point, the source at that point begins with the token that the mark is
    written as, and in the order of the source the points grow. -/
theorem read_marks (source : String) (stmts : List Node) (h : read source = .ok stmts) :
    (∀ m ∈ marksOf stmts, ∃ p, m.2 = some p ∧ m.1.StandsIn source.toList p) ∧
    (marksOf stmts).Pairwise fun m m' =>
      ∃ p p', m.2 = some p ∧ m'.2 = some p' ∧ p.Before p' := by
  have hwithin := read_within h
  have hwritten : ∀ t ∈ (Tokens.ofText (complete source.toList)).tokens, ∀ m ∈ t.mark?,
      m.1.StandsIn source.toList t.pos ∧ m.2 = some t.pos := by
    intro t ht m hm
    obtain ⟨above, below, hstands, -, hpos⟩ := Token.placed t ht
    obtain ⟨hw, hterm, hp⟩ := Token.mark_written hstands.writes hm
    refine ⟨?_, hp⟩
    rw [hpos]
    refine hw.in_source (Terminal.writes_nonempty hstands.writes) ?_ hstands.split
    rw [hterm]
    exact hstands.ends
  constructor
  · intro m hm
    obtain ⟨t, ht, hmark⟩ := List.mem_filterMap.mp (hwithin.subset hm)
    obtain ⟨hstands, hp⟩ := hwritten t ht m hmark
    exact ⟨t.pos, hp, hstands⟩
  · refine List.Pairwise.sublist hwithin (List.pairwise_filterMap.mpr ?_)
    refine (Token.ordered _).imp_of_mem ?_
    intro t t' ht ht' hbefore m hm m' hm'
    exact ⟨t.pos, t'.pos, (hwritten t ht m hm).2, (hwritten t' ht' m' hm').2, hbefore⟩

/-- Two lines, of which the second is a run that the fold regroups, have their marks in the order
    in which they are written. -/
theorem read_marks_run :
    ∃ stmts, read "é \"s\"\n1 + -a * 2" = .ok stmts ∧
      marksOf stmts = [(.name "é", some ⟨1, 1⟩), (.string "s", some ⟨1, 3⟩),
        (.number 1, some ⟨2, 1⟩), (.operator .plus, some ⟨2, 3⟩), (.name "a", some ⟨2, 6⟩),
        (.operator .times, some ⟨2, 8⟩), (.number 2, some ⟨2, 10⟩)] ∧
      ∀ m ∈ marksOf stmts, ∃ p, m.2 = some p ∧
        m.1.StandsIn "é \"s\"\n1 + -a * 2".toList p := by
  -- the marks can be compared, and the tree need not be spelled out
  have hmarks : (read "é \"s\"\n1 + -a * 2").toOption.map marksOf =
      some [(.name "é", some ⟨1, 1⟩), (.string "s", some ⟨1, 3⟩),
        (.number 1, some ⟨2, 1⟩), (.operator .plus, some ⟨2, 3⟩), (.name "a", some ⟨2, 6⟩),
        (.operator .times, some ⟨2, 8⟩), (.number 2, some ⟨2, 10⟩)] := by decide +kernel
  cases hread : read "é \"s\"\n1 + -a * 2" with
  | error e =>
      rw [hread] at hmarks
      exact nomatch hmarks
  | ok stmts =>
      rw [hread] at hmarks
      exact ⟨stmts, rfl, Option.some.inj hmarks, (read_marks _ stmts hread).1⟩

end Program

end BasicSyntax
