import BasicSyntax.Proofs.Fold
import BasicSyntax.Proofs.Reading
import BasicSyntax.Proofs.Text.Digits
import BasicSyntax.Proofs.Text.Literal

/-! # Shapes — what is read is well-formed

    A token that the scanner made has a text that writes its terminal (`Scan.writes`).  So what
    single tokens become is well-formed: names, numbers, texts and operators.  Each rule of the
    grammar keeps it so, and folding a run of operands does because joining does.  The induction
    is on derivation trees, with one theorem for each sort of part. -/

namespace BasicSyntax

/-- A token as the scanner makes it, and if it is a number, one that is not too long. -/
structure Token.Sound (t : Token) : Prop where
  writes : t.terminal.Writes t.text.toList
  short : t.terminal = .number → t.text.length ≤ Text.digitLimit

namespace Grammar

open Node

/-! ## Single tokens -/

theorem sound_name {t : Token} (h : t.Sound) (ht : t.terminal = .identifier) :
    (Parse.binderOf t).IsNamed := by
  have hw := h.writes
  rw [ht] at hw
  exact hw

theorem sound_number {t : Token} (h : t.Sound) (ht : t.terminal = .number) :
    IsExpr (Parse.literalOf t) := by
  have hw := h.writes
  rw [ht] at hw
  rw [Parse.literalOf, if_pos ht]
  refine .number _ (Nat.lt_of_lt_of_le (Text.ofDigits_lt ?_) (Nat.pow_le_pow_right (by decide) ?_))
  · intro d hd
    obtain ⟨c, hc, rfl⟩ := List.mem_map.mp hd
    exact Text.digit_lt (hw.2 c hc)
  · rw [List.length_map, String.length_toList]
    exact h.short ht

theorem sound_string {t : Token} (h : t.Sound) (ht : t.terminal = .string) :
    IsExpr (Parse.literalOf t) := by
  have hw := h.writes
  rw [ht] at hw
  obtain ⟨body, hbody, hb⟩ := hw
  have hread : (Text.readLiteral t.text).toList = Text.decodeLiteral body :=
    Text.readLiteral_quoted hbody
  rw [Parse.literalOf, if_neg (by rw [ht]; decide)]
  refine .string _ ⟨?_, ?_⟩
  · rw [hread]
    exact Text.decode_plain body
  · rw [hread, Text.encode_decode body (Text.literalBody_line body hb)]
    exact hb

theorem sound_literal {t : Token} (h : t.Sound) (ht : t.terminal ∈ literalSorts) :
    IsExpr (Parse.literalOf t) := by
  rcases List.mem_cons.mp ht with ht | ht
  · exact sound_number h ht
  · exact sound_string h (List.mem_singleton.mp ht)

theorem sound_word {t : Token} (h : t.Sound) (ht : t.terminal ∈ wordSorts) :
    IsArgument (wordNode t) := by
  simp only [wordSorts, List.mem_cons, List.not_mem_nil, or_false] at ht
  unfold wordNode
  rcases ht with ht | ht | ht | ht
  · rw [ht]
    exact .expr (.name (sound_name h ht))
  · rw [ht]
    exact .expr (sound_number h ht)
  · rw [ht]
    exact .expr (sound_string h ht)
  · rw [ht]
    exact .underline _

theorem sound_operator {t : Token} (h : t.Sound) (ht : t.terminal ∈ operatorSorts) :
    (Parse.operatorOf t).symbol ≠ .dummy := by
  -- the few texts that operators have are looked up one by one
  have htable : ∀ u ∈ ['-'] :: operatorTexts,
      (Symbol.ofText? (String.ofList u)).getD .dummy ≠ .dummy := by decide
  have hu : t.text.toList ∈ ['-'] :: operatorTexts := by
    have hw := h.writes
    rcases List.mem_cons.mp ht with ht | ht
    · rw [ht] at hw
      exact List.mem_cons_of_mem _ hw
    · rw [List.mem_singleton.mp ht] at hw
      rw [← Option.some.inj hw]
      exact List.mem_cons_self ..
  have hne := htable _ hu
  rw [String.ofList_toList] at hne
  exact hne

theorem sound_names {leaves : List (Leaf [.identifier])}
    (h : ∀ t ∈ leafTokens leaves, t.Sound) : ∀ b ∈ names leaves, b.IsNamed := by
  intro b hb
  obtain ⟨leaf, hl, rfl⟩ := List.mem_map.mp hb
  exact sound_name (h _ (List.mem_map_of_mem hl)) (List.mem_singleton.mp leaf.fits)

/-- A sign keeps an operand an expression. -/
theorem signed_shape {sorts : List Terminal} (sign : Option (Leaf sorts)) {n : Node}
    (h : IsExpr n) : IsExpr (signed sign n) := by
  cases sign with
  | none => exact h
  | some _ => exact .negative h

/-! ## Derivations -/

mutual

theorem Statement.shape : ∀ d : Statement, (∀ t ∈ d.tokens, t.Sound) → IsStmt d.node
  | .choice ifWord condition thenBlock, h => by
      simp only [Statement.tokens, List.forall_mem_cons, List.forall_mem_append] at h
      exact .conditional (condition.shape h.2.1) (thenBlock.shape h.2.2)
  | .choiceElse ifWord condition thenBlock elseWord elseBlock, h => by
      simp only [Statement.tokens, List.forall_mem_cons, List.forall_mem_append] at h
      exact .conditionalElse (condition.shape h.2.1) (thenBlock.shape h.2.2.1)
        (elseBlock.shape h.2.2.2.2)
  | .loop whileWord condition body, h => by
      simp only [Statement.tokens, List.forall_mem_cons, List.forall_mem_append] at h
      exact .loop (condition.shape h.2.1) (body.shape h.2.2)
  | .binding letWord macroWord named params equals codes, h => by
      simp only [Statement.tokens, List.forall_mem_cons, List.forall_mem_append] at h
      obtain ⟨-, -, hnamed, hparams, -, hcodes⟩ := h
      refine .binding _ (sound_name hnamed (List.mem_singleton.mp named.fits)) ?_
        (codes.shape hcodes)
      cases params with
      | nil => exact nofun
      | cons param params =>
          intro bs hbs
          obtain rfl := Option.some.inj hbs
          exact ⟨List.cons_ne_nil _ _, sound_names hparams⟩
  | .cluster cluster, h => .cluster (cluster.shape h)

theorem Cluster.shape : ∀ d : Cluster, (∀ t ∈ d.tokens, t.Sound) → IsCluster d.node
  | .expr expr, h => .expr (expr.shape h)
  | .enclosed (.make form opening items closing), h => by
      simp only [Cluster.tokens, Enclosed.tokens, List.forall_mem_cons,
        List.forall_mem_append] at h
      exact .enclosed form (items.shape h.2.1)

theorem Items.shape : ∀ d : Items, (∀ t ∈ d.tokens, t.Sound) → ∀ n ∈ d.nodes, IsStmt n
  | .empty, _ => nofun
  | .last statement, h => List.forall_mem_singleton.mpr (statement.shape h)
  | .skip separator rest, h => rest.shape (List.forall_mem_cons.mp h).2
  | .cons statement separator rest, h => by
      simp only [Items.tokens, List.forall_mem_cons, List.forall_mem_append] at h
      exact List.forall_mem_cons.mpr ⟨statement.shape h.1, rest.shape h.2.2⟩

theorem Expr.shape : ∀ d : Expr, (∀ t ∈ d.tokens, t.Sound) → IsExpr d.node
  | .run run, h => by
      obtain ⟨hfirst, hrest⟩ := run.shape h
      exact Fold.resolveBy_keeps (fun hl ho hr => .binary hl ho hr) hfirst hrest
  | .function funWord param params arrow body, h => by
      simp only [Expr.tokens, List.forall_mem_cons, List.forall_mem_append] at h
      obtain ⟨-, hparam, hparams, -, hbody⟩ := h
      refine .function _ (List.cons_ne_nil _ _) ?_ (body.shape hbody)
      exact List.forall_mem_cons.mpr
        ⟨sound_name hparam (List.mem_singleton.mp param.fits), sound_names hparams⟩

theorem Run.shape : ∀ d : Run, (∀ t ∈ d.tokens, t.Sound) →
    IsExpr d.operands.1 ∧ ∀ p ∈ d.operands.2, p.1.symbol ≠ .dummy ∧ IsExpr p.2
  | .last sign primary, h => by
      simp only [Run.tokens, List.forall_mem_append] at h
      exact ⟨signed_shape sign (primary.shape h.2), nofun⟩
  | .cons sign primary op rest, h => by
      simp only [Run.tokens, List.forall_mem_cons, List.forall_mem_append] at h
      obtain ⟨-, hprimary, hop, hrest⟩ := h
      obtain ⟨hfirst, hmore⟩ := rest.shape hrest
      exact ⟨signed_shape sign (primary.shape hprimary),
        List.forall_mem_cons.mpr ⟨⟨sound_operator hop op.fits, hfirst⟩, hmore⟩⟩

theorem Primary.shape : ∀ d : Primary, (∀ t ∈ d.tokens, t.Sound) → IsExpr d.node
  | .group opening expr closing, h => by
      simp only [Primary.tokens, List.forall_mem_cons, List.forall_mem_append] at h
      exact expr.shape h.2.1
  | .literal token, h => sound_literal (List.forall_mem_singleton.mp h) token.fits
  | .applied name chain, h => by
      obtain ⟨hname, hchain⟩ := List.forall_mem_cons.mp h
      have hb := sound_name hname (List.mem_singleton.mp name.fits)
      have hns := chain.shape hchain
      show IsExpr (applicationNode _ chain.nodes)
      cases hnodes : chain.nodes with
      | nil => exact .name hb
      | cons n ns =>
          rw [hnodes] at hns
          exact .application hb (List.cons_ne_nil n ns) hns

theorem Chain.shape : ∀ d : Chain, (∀ t ∈ d.tokens, t.Sound) → ∀ n ∈ d.nodes, IsArgument n
  | .done, _ => nofun
  | .group opening expr closing rest, h => by
      simp only [Chain.tokens, List.forall_mem_cons, List.forall_mem_append] at h
      exact List.forall_mem_cons.mpr ⟨.expr (expr.shape h.2.1), rest.shape h.2.2.2⟩
  | .enclosed (.make form opening items closing) rest, h => by
      simp only [Chain.tokens, Enclosed.tokens, List.forall_mem_cons,
        List.forall_mem_append] at h
      exact List.forall_mem_cons.mpr ⟨.enclosed form (items.shape h.1.2.1), rest.shape h.2⟩
  | .word token rest, h => by
      obtain ⟨htoken, hrest⟩ := List.forall_mem_cons.mp h
      exact List.forall_mem_cons.mpr ⟨sound_word htoken token.fits, rest.shape hrest⟩

end

theorem Line.shape (line : Line) (h : ∀ t ∈ line.tokens, t.Sound) : line.node.IsEntry := by
  obtain ⟨statement, separator⟩ := line
  cases statement with
  | none => exact Or.inl rfl
  | some statement =>
      simp only [Line.tokens, List.forall_mem_append] at h
      exact Or.inr (statement.shape h.1)

/-- The entries of a program whose tokens are sound are well-formed. -/
theorem Derivation.shape (d : Derivation) (h : ∀ t ∈ d.tokens, t.Sound) :
    ∀ n ∈ d.nodes, n.IsEntry := by
  intro n hn
  obtain ⟨line, hl, rfl⟩ := List.mem_map.mp hn
  exact line.shape fun t ht => h t (List.mem_flatMap.mpr ⟨line, hl, ht⟩)

end Grammar

namespace Program

open Grammar

/-- What is read is the abstract syntax of a derivation, whose tokens are those of the completed
    text and sound. -/
theorem read_derived {source : String} {stmts : List Node} (h : read source = .ok stmts) :
    ∃ d : Derivation, d.tokens = (Tokens.ofText (complete source.toList)).tokens ∧ d.Greedy ∧
      d.nodes = stmts ∧ ∀ t ∈ d.tokens, t.Sound := by
  obtain ⟨hs, hl⟩ := (read_ok_iff source stmts).mp h
  obtain ⟨-, d, ht, hg, hd⟩ := (statements_iff _ _).mp hs
  refine ⟨d, ht, hg, hd, ?_⟩
  intro t htok
  rw [ht] at htok
  exact ⟨(scan_ofText _).writes t htok, longNumber?_short hl t htok⟩

/-- The entries of what is read are well-formed. -/
theorem read_entries {source : String} {stmts : List Node} (h : read source = .ok stmts) :
    ∀ n ∈ stmts, n.IsEntry := by
  obtain ⟨d, -, -, rfl, hsound⟩ := read_derived h
  exact d.shape hsound

/-- **WELL-FORMED**: whatever is read is a statement, with well-formed parts all the way down,
    or what an empty line stands for. -/
theorem read_wellFormed (source : String) (stmts : List Node) (h : read source = .ok stmts) :
    ∀ n ∈ stmts, n.IsEntry :=
  read_entries h

/-- A name applied to an open argument is read, and is well-formed. -/
theorem read_wellFormed_application :
    ∃ stmts, read "f _" = .ok stmts ∧ ∀ n ∈ stmts, n.IsEntry :=
  ⟨[.application (.binder ⟨"f", some ⟨1, 1⟩⟩) [.underline (some ⟨1, 3⟩)]], rfl,
    read_wellFormed "f _" _ rfl⟩

end Program

end BasicSyntax
