import BasicSyntax.Proofs.Grammar

/-! # Ahead — what may stand at the front of a list of tokens

    `clusterAhead k ts` says that a cluster stands at the front of `ts` and that `k` holds of
    its node and of the tokens behind it; the other sorts of part have such a statement each.
    The theorems of this file take one token off: they say what a part begins with and what is
    then still ahead.  They are the rules of the grammar, read from the left.

    The trees themselves appear only here.  What follows in `Proofs/Parse` speaks of the parts
    ahead and never takes a tree apart again. -/

namespace BasicSyntax.Grammar

/-- A condition on what has been read and the tokens behind it. -/
abbrev Behind (α : Type) := α → List Token → Prop

/-- A token of one of the sorts is ahead. -/
def leafAhead (sorts : List Terminal) (k : Behind Token) : List Token → Prop
  | [] => False
  | t :: us => t.terminal ∈ sorts ∧ k t us

/-- Names are ahead, as many as one likes. -/
def namesAhead (k : Behind (List Binder)) (ts : List Token) : Prop :=
  ∃ (d : List (Leaf [.identifier])) (us : List Token),
    ts = leafTokens d ++ us ∧ k (names d) us

/-- A statement is ahead. -/
def statementAhead (k : Behind Node) (ts : List Token) : Prop :=
  ∃ (d : Statement) (us : List Token), ts = d.tokens ++ us ∧ d.Greedy us ∧ k d.node us

/-- A cluster is ahead. -/
def clusterAhead (k : Behind Node) (ts : List Token) : Prop :=
  ∃ (d : Cluster) (us : List Token), ts = d.tokens ++ us ∧ d.Greedy us ∧ k d.node us

/-- Statements between brackets are ahead. -/
def enclosedAhead (k : Behind Node) (ts : List Token) : Prop :=
  ∃ (d : Enclosed) (us : List Token), ts = d.tokens ++ us ∧ d.Greedy us ∧ k d.node us

/-- The rest of what stands between brackets is ahead, with the closing one. -/
def itemsAhead (form : Enclosure) (k : Behind (List Node)) (ts : List Token) : Prop :=
  ∃ (d : Items) (closing : Leaf [form.closer]) (us : List Token),
    ts = d.tokens ++ closing.token :: us ∧ d.Greedy (closing.token :: us) ∧ k d.nodes us

/-- An expression is ahead. -/
def exprAhead (k : Behind Node) (ts : List Token) : Prop :=
  ∃ (d : Expr) (us : List Token), ts = d.tokens ++ us ∧ d.Greedy us ∧ k d.node us

/-- A run of operands is ahead. -/
def runAhead (k : Behind (Node × List (Pair Node))) (ts : List Token) : Prop :=
  ∃ (d : Run) (us : List Token), ts = d.tokens ++ us ∧ d.Greedy us ∧ k d.operands us

/-- An operand is ahead, its sign apart. -/
def primaryAhead (k : Behind Node) (ts : List Token) : Prop :=
  ∃ (d : Primary) (us : List Token), ts = d.tokens ++ us ∧ d.Greedy us ∧ k d.node us

/-- The rest of a chain of arguments is ahead. -/
def chainAhead (k : Behind (List Node)) (ts : List Token) : Prop :=
  ∃ (d : Chain) (us : List Token), ts = d.tokens ++ us ∧ d.Greedy us ∧ k d.nodes us

/-- The rest of a program is ahead. -/
def linesAhead (k : List Node → Prop) (ts : List Token) : Prop :=
  ∃ d : Derivation, ts = d.tokens ∧ d.Greedy ∧ k d.nodes

/-! ## Single tokens and names -/

@[simp] theorem leafAhead_cons (sorts : List Terminal) (k : Behind Token) (t : Token)
    (us : List Token) : leafAhead sorts k (t :: us) ↔ t.terminal ∈ sorts ∧ k t us := Iff.rfl

@[simp] theorem leafAhead_nil (sorts : List Terminal) (k : Behind Token) :
    leafAhead sorts k [] ↔ False := Iff.rfl

theorem leafAhead_iff (sorts : List Terminal) (k : Behind Token) (ts : List Token) :
    leafAhead sorts k ts ↔
      ∃ (leaf : Leaf sorts) (us : List Token), ts = leaf.token :: us ∧ k leaf.token us := by
  constructor
  · intro h
    cases ts with
    | nil => exact h.elim
    | cons t us => exact ⟨⟨t, h.1⟩, us, rfl, h.2⟩
  · rintro ⟨leaf, us, rfl, h⟩
    exact ⟨leaf.fits, h⟩

theorem namesAhead_iff (k : Behind (List Binder)) (ts : List Token) :
    namesAhead k ts ↔ k [] ts ∨
      leafAhead [.identifier] (fun t => namesAhead fun bs => k (Parse.binderOf t :: bs)) ts := by
  constructor
  · rintro ⟨d, us, rfl, h⟩
    cases d with
    | nil => exact Or.inl h
    | cons leaf rest => exact Or.inr ⟨leaf.fits, rest, us, rfl, h⟩
  · rintro (h | h)
    · exact ⟨[], ts, rfl, h⟩
    · obtain ⟨leaf, us, rfl, rest, vs, rfl, hk⟩ := (leafAhead_iff ..).mp h
      exact ⟨leaf :: rest, vs, rfl, hk⟩

/-! ## Brackets -/

/-- Behind a statement between brackets: the closing one, or a separator and more of them. -/
def itemsBehind (form : Enclosure) (k : Behind (List Node)) (ts : List Token) : Prop :=
  leafAhead [form.closer] (fun _ => k []) ts ∨
    leafAhead [.separator] (fun _ => itemsAhead form k) ts

theorem itemsAhead_iff (form : Enclosure) (k : Behind (List Node)) (ts : List Token) :
    itemsAhead form k ts ↔ itemsBehind form k ts ∨
      statementAhead (fun n => itemsBehind form fun ns => k (n :: ns)) ts := by
  constructor
  · rintro ⟨d, closing, us, rfl, hg, h⟩
    cases d with
    | empty => exact Or.inl (Or.inl ⟨closing.fits, h⟩)
    | last statement =>
        exact Or.inr ⟨statement, _, rfl, hg, Or.inl ⟨closing.fits, h⟩⟩
    | skip separator rest =>
        exact Or.inl (Or.inr ⟨separator.fits, rest, closing, us, rfl, hg, h⟩)
    | cons statement separator rest =>
        refine Or.inr ⟨statement, separator.token :: (rest.tokens ++ closing.token :: us), ?_,
          hg.1, Or.inr ⟨separator.fits, rest, closing, us, rfl, hg.2, h⟩⟩
        simp only [Items.tokens, List.append_assoc, List.cons_append]
  · rintro ((h | h) | ⟨statement, us, rfl, hg, h | h⟩)
    · obtain ⟨closing, us, rfl, hk⟩ := (leafAhead_iff ..).mp h
      exact ⟨.empty, closing, us, rfl, trivial, hk⟩
    · obtain ⟨separator, us, rfl, rest, closing, vs, rfl, hg, hk⟩ := (leafAhead_iff ..).mp h
      exact ⟨.skip separator rest, closing, vs, rfl, hg, hk⟩
    · obtain ⟨closing, vs, rfl, hk⟩ := (leafAhead_iff ..).mp h
      exact ⟨.last statement, closing, vs, rfl, hg, hk⟩
    · obtain ⟨separator, vs, rfl, rest, closing, ws, rfl, hg', hk⟩ := (leafAhead_iff ..).mp h
      refine ⟨.cons statement separator rest, closing, ws, ?_, ⟨hg, hg'⟩, hk⟩
      simp only [Items.tokens, List.append_assoc, List.cons_append]

theorem enclosedAhead_iff (k : Behind Node) (ts : List Token) :
    enclosedAhead k ts ↔ ∃ form : Enclosure, leafAhead [form.opener]
      (fun _ => itemsAhead form fun ns => k (.enclosed form ns)) ts := by
  constructor
  · rintro ⟨⟨form, opening, items, closing⟩, us, rfl, hg, h⟩
    exact ⟨form, opening.fits, items, closing, us,
      List.append_assoc items.tokens [closing.token] us, hg, h⟩
  · rintro ⟨form, h⟩
    obtain ⟨opening, us, rfl, items, closing, vs, rfl, hg, hk⟩ := (leafAhead_iff ..).mp h
    refine ⟨.make form opening items closing, vs, ?_, hg, hk⟩
    simp only [Enclosed.tokens, List.append_assoc, List.cons_append, List.nil_append]

theorem enclosedAhead_cons (k : Behind Node) (t : Token) (ts : List Token) :
    enclosedAhead k (t :: ts) ↔
      (t.terminal = .openBrace ∧ itemsAhead .block (fun ns => k (.enclosed .block ns)) ts) ∨
      (t.terminal = .openSquare ∧
        itemsAhead .scope (fun ns => k (.enclosed .scope ns)) ts) := by
  rw [enclosedAhead_iff]
  constructor
  · rintro ⟨form, hf, h⟩
    cases form with
    | block => exact Or.inl ⟨List.mem_singleton.mp hf, h⟩
    | scope => exact Or.inr ⟨List.mem_singleton.mp hf, h⟩
  · rintro (⟨hf, h⟩ | ⟨hf, h⟩)
    · exact ⟨.block, List.mem_singleton.mpr hf, h⟩
    · exact ⟨.scope, List.mem_singleton.mpr hf, h⟩

/-! ## Operands -/

/-- An expression and the round bracket that closes behind it are ahead. -/
def groupAhead (k : Behind Node) (ts : List Token) : Prop :=
  exprAhead (fun n => leafAhead [.closeParen] fun _ => k n) ts

theorem chainAhead_iff (k : Behind (List Node)) (ts : List Token) :
    chainAhead k ts ↔ (ChainEnds ts ∧ k [] ts) ∨
      leafAhead [.openParen]
        (fun _ => groupAhead fun n => chainAhead fun ns => k (n :: ns)) ts ∨
      enclosedAhead (fun n => chainAhead fun ns => k (n :: ns)) ts ∨
      leafAhead wordSorts (fun t => chainAhead fun ns => k (wordNode t :: ns)) ts := by
  constructor
  · rintro ⟨d, us, rfl, hg, h⟩
    cases d with
    | done => exact Or.inl ⟨hg, h⟩
    | group opening expr closing rest =>
        exact Or.inr (Or.inl ⟨opening.fits, expr, closing.token :: (rest.tokens ++ us),
          List.append_assoc expr.tokens (closing.token :: rest.tokens) us,
          hg.1, closing.fits, rest, us, rfl, hg.2, h⟩)
    | enclosed enclosed rest =>
        refine Or.inr (Or.inr (Or.inl ⟨enclosed, rest.tokens ++ us, ?_, hg.1,
          rest, us, rfl, hg.2, h⟩))
        simp only [Chain.tokens, List.append_assoc]
    | word token rest => exact Or.inr (Or.inr (Or.inr ⟨token.fits, rest, us, rfl, hg, h⟩))
  · rintro (⟨hg, h⟩ | h | ⟨enclosed, us, rfl, hg, rest, vs, rfl, hg', h⟩ | h)
    · exact ⟨.done, ts, rfl, hg, h⟩
    · obtain ⟨opening, us, rfl, expr, vs, rfl, hg, hk⟩ := (leafAhead_iff ..).mp h
      obtain ⟨closing, ws, rfl, rest, xs, rfl, hg', hk'⟩ := (leafAhead_iff ..).mp hk
      refine ⟨.group opening expr closing rest, xs, ?_, ⟨hg, hg'⟩, hk'⟩
      simp only [Chain.tokens, List.append_assoc, List.cons_append]
    · refine ⟨.enclosed enclosed rest, vs, ?_, ⟨hg, hg'⟩, h⟩
      simp only [Chain.tokens, List.append_assoc]
    · obtain ⟨token, us, rfl, rest, vs, rfl, hg, hk⟩ := (leafAhead_iff ..).mp h
      exact ⟨.word token rest, vs, rfl, hg, hk⟩

theorem primaryAhead_iff (k : Behind Node) (ts : List Token) :
    primaryAhead k ts ↔ leafAhead [.openParen] (fun _ => groupAhead k) ts ∨
      leafAhead literalSorts (fun t => k (Parse.literalOf t)) ts ∨
      leafAhead [.identifier]
        (fun t => chainAhead fun ns => k (applicationNode (Parse.binderOf t) ns)) ts := by
  constructor
  · rintro ⟨d, us, rfl, hg, h⟩
    cases d with
    | group opening expr closing =>
        exact Or.inl ⟨opening.fits, expr, closing.token :: us,
          List.append_assoc expr.tokens [closing.token] us, hg, closing.fits, h⟩
    | literal token => exact Or.inr (Or.inl ⟨token.fits, h⟩)
    | applied name chain => exact Or.inr (Or.inr ⟨name.fits, chain, us, rfl, hg, h⟩)
  · rintro (h | h | h)
    · obtain ⟨opening, us, rfl, expr, vs, rfl, hg, hk⟩ := (leafAhead_iff ..).mp h
      obtain ⟨closing, ws, rfl, hk'⟩ := (leafAhead_iff ..).mp hk
      refine ⟨.group opening expr closing, ws, ?_, hg, hk'⟩
      simp only [Primary.tokens, List.append_assoc, List.cons_append, List.nil_append]
    · obtain ⟨token, us, rfl, hk⟩ := (leafAhead_iff ..).mp h
      exact ⟨.literal token, us, rfl, trivial, hk⟩
    · obtain ⟨name, us, rfl, chain, vs, rfl, hg, hk⟩ := (leafAhead_iff ..).mp h
      exact ⟨.applied name chain, vs, rfl, hg, hk⟩

/-- An operand with its sign is ahead. -/
def factorAhead (k : Behind Node) (ts : List Token) : Prop :=
  primaryAhead k ts ∨ leafAhead [.minus] (fun _ => primaryAhead fun n => k (.negative n)) ts

/-- Behind an operand of a run: something else, or an operator and more operands. -/
def runBehind (k : Behind (Node × List (Pair Node))) (n : Node) (ts : List Token) : Prop :=
  k (n, []) ts ∨ leafAhead operatorSorts
    (fun op => runAhead fun r => k (n, (Parse.operatorOf op, r.1) :: r.2)) ts

theorem runAhead_iff (k : Behind (Node × List (Pair Node))) (ts : List Token) :
    runAhead k ts ↔ factorAhead (runBehind k) ts := by
  constructor
  · rintro ⟨d, us, rfl, hg, h⟩
    cases d with
    | last sign primary =>
        cases sign with
        | none => exact Or.inl ⟨primary, us, rfl, hg, Or.inl h⟩
        | some minus => exact Or.inr ⟨minus.fits, primary, us, rfl, hg, Or.inl h⟩
    | cons sign primary op rest =>
        have hrest : runBehind k (signed sign primary.node)
            (op.token :: (rest.tokens ++ us)) :=
          Or.inr ⟨op.fits, rest, us, rfl, hg.2, h⟩
        cases sign with
        | none =>
            exact Or.inl ⟨primary, op.token :: (rest.tokens ++ us),
              List.append_assoc primary.tokens (op.token :: rest.tokens) us, hg.1, hrest⟩
        | some minus =>
            exact Or.inr ⟨minus.fits, primary, op.token :: (rest.tokens ++ us),
              List.append_assoc primary.tokens (op.token :: rest.tokens) us, hg.1, hrest⟩
  -- a run is built the same with a sign and without
  · have build : ∀ (sign : Option (Leaf [.minus])) (primary : Primary) (us : List Token),
        primary.Greedy us → runBehind k (signed sign primary.node) us →
          runAhead k (optionTokens sign ++ (primary.tokens ++ us)) := by
      rintro sign primary us hg (h | h)
      · exact ⟨.last sign primary, us, (List.append_assoc ..).symm, hg, h⟩
      · obtain ⟨op, vs, rfl, rest, ws, rfl, hg', hk⟩ := (leafAhead_iff ..).mp h
        refine ⟨.cons sign primary op rest, ws, ?_, ⟨hg, hg'⟩, hk⟩
        simp only [Run.tokens, List.append_assoc, List.cons_append]
    rintro (⟨primary, us, rfl, hg, h⟩ | h)
    · exact build none primary us hg h
    · obtain ⟨minus, us, rfl, primary, vs, rfl, hg, hk⟩ := (leafAhead_iff ..).mp h
      exact build (some minus) primary vs hg hk

/-! ## Expressions, clusters and statements -/

/-- Behind the name of a function's parameter: more of them, the arrow and the body. -/
def functionBehind (k : Behind Node) (pos : Position) (params : List Binder) :
    List Token → Prop :=
  namesAhead fun bs => leafAhead [.arrow] fun _ => clusterAhead fun n =>
    k (functionNode pos (params ++ bs) n)

theorem exprAhead_iff (k : Behind Node) (ts : List Token) :
    exprAhead k ts ↔ runAhead (fun r => k (resolve r.1 r.2)) ts ∨
      leafAhead [.funWord] (fun f => leafAhead [.identifier] fun p =>
        functionBehind k f.pos [Parse.binderOf p]) ts := by
  constructor
  · rintro ⟨d, us, rfl, hg, h⟩
    cases d with
    | run run => exact Or.inl ⟨run, us, rfl, hg, h⟩
    | function funWord param params arrow body =>
        exact Or.inr ⟨funWord.fits, param.fits, params, arrow.token :: (body.tokens ++ us),
          List.append_assoc (leafTokens params) (arrow.token :: body.tokens) us,
          arrow.fits, body, us, rfl, hg, h⟩
  · rintro (⟨run, us, rfl, hg, h⟩ | h)
    · exact ⟨.run run, us, rfl, hg, h⟩
    · obtain ⟨funWord, us, rfl, hp⟩ := (leafAhead_iff ..).mp h
      obtain ⟨param, vs, rfl, params, ws, rfl, ha⟩ := (leafAhead_iff ..).mp hp
      obtain ⟨arrow, xs, rfl, body, ys, rfl, hg, hk⟩ := (leafAhead_iff ..).mp ha
      refine ⟨.function funWord param params arrow body, ys, ?_, hg, hk⟩
      simp only [Expr.tokens, List.append_assoc, List.cons_append]

theorem clusterAhead_iff (k : Behind Node) (ts : List Token) :
    clusterAhead k ts ↔ exprAhead k ts ∨ enclosedAhead k ts := by
  constructor
  · rintro ⟨d, us, rfl, hg, h⟩
    cases d with
    | expr expr => exact Or.inl ⟨expr, us, rfl, hg, h⟩
    | enclosed enclosed => exact Or.inr ⟨enclosed, us, rfl, hg, h⟩
  · rintro (⟨expr, us, rfl, hg, h⟩ | ⟨enclosed, us, rfl, hg, h⟩)
    · exact ⟨.expr expr, us, rfl, hg, h⟩
    · exact ⟨.enclosed enclosed, us, rfl, hg, h⟩

/-- Behind the first branch of a choice: something else, or the second branch. -/
def thenBehind (k : Behind Node) (condition thenBlock : Node) (ts : List Token) : Prop :=
  k (.conditional condition thenBlock none) ts ∨ leafAhead [.elseWord]
    (fun _ => clusterAhead fun n => k (.conditional condition thenBlock (some n))) ts

/-- Behind the name of a binding: parameters, the equals sign and the codes. -/
def bindingBehind (k : Behind Node) (form : BindingForm) (named : Binder)
    (params : List Binder) : List Token → Prop :=
  namesAhead fun bs => leafAhead [.equals] fun _ => clusterAhead fun n =>
    k (.binding form named (paramList (params ++ bs)) n)

/-- The name of a binding and what belongs behind it are ahead. -/
def bindingAhead (k : Behind Node) (form : BindingForm) : List Token → Prop :=
  leafAhead [.identifier] fun t => bindingBehind k form (Parse.binderOf t) []

theorem statementAhead_iff (k : Behind Node) (ts : List Token) :
    statementAhead k ts ↔
      leafAhead [.ifWord]
        (fun _ => primaryAhead fun n => clusterAhead fun m => thenBehind k n m) ts ∨
      leafAhead [.whileWord]
        (fun _ => primaryAhead fun n => clusterAhead fun m => k (.loop n m)) ts ∨
      leafAhead [.letWord] (fun _ us => bindingAhead k .value us ∨
        leafAhead [.macroWord] (fun _ => bindingAhead k .template) us) ts ∨
      clusterAhead k ts := by
  constructor
  · rintro ⟨d, us, rfl, hg, h⟩
    cases d with
    | choice ifWord condition thenBlock =>
        exact Or.inl ⟨ifWord.fits, condition, thenBlock.tokens ++ us,
          List.append_assoc .., hg.1, thenBlock, us, rfl, hg.2, Or.inl h⟩
    | choiceElse ifWord condition thenBlock elseWord elseBlock =>
        refine Or.inl ⟨ifWord.fits, condition,
          thenBlock.tokens ++ elseWord.token :: (elseBlock.tokens ++ us), ?_, hg.1,
          thenBlock, elseWord.token :: (elseBlock.tokens ++ us), rfl, hg.2.1,
          Or.inr ⟨elseWord.fits, elseBlock, us, rfl, hg.2.2, h⟩⟩
        show condition.tokens ++ (thenBlock.tokens ++ elseWord.token :: elseBlock.tokens) ++ us
          = condition.tokens ++ (thenBlock.tokens ++ elseWord.token :: (elseBlock.tokens ++ us))
        rw [List.append_assoc, List.append_assoc, List.cons_append]
    | loop whileWord condition body =>
        exact Or.inr (Or.inl ⟨whileWord.fits, condition, body.tokens ++ us,
          List.append_assoc .., hg.1, body, us, rfl, hg.2, h⟩)
    | binding letWord macroWord named params equals codes =>
        have hb : ∀ form, k (.binding form (Parse.binderOf named.token)
            (paramList (names params)) codes.node) us →
            bindingAhead k form (named.token ::
              ((leafTokens params ++ equals.token :: codes.tokens) ++ us)) :=
          fun form hk => ⟨named.fits, params, equals.token :: (codes.tokens ++ us),
            List.append_assoc (leafTokens params) (equals.token :: codes.tokens) us,
            equals.fits, codes, us, rfl, hg, hk⟩
        refine Or.inr (Or.inr (Or.inl ⟨letWord.fits, ?_⟩))
        cases macroWord with
        | none => exact Or.inl (hb .value h)
        | some macroWord => exact Or.inr ⟨macroWord.fits, hb .template h⟩
    | cluster cluster => exact Or.inr (Or.inr (Or.inr ⟨cluster, us, rfl, hg, h⟩))
  -- a binding is built the same for a value and for a template
  · have build : ∀ (letWord : Leaf [.letWord]) (macroWord : Option (Leaf [.macroWord]))
        (us : List Token), bindingAhead k (bindingForm macroWord) us →
          statementAhead k (letWord.token :: (optionTokens macroWord ++ us)) := by
      intro letWord macroWord us h
      obtain ⟨named, vs, rfl, params, ws, rfl, he⟩ := (leafAhead_iff ..).mp h
      obtain ⟨equals, xs, rfl, codes, ys, rfl, hg, hk⟩ := (leafAhead_iff ..).mp he
      refine ⟨.binding letWord macroWord named params equals codes, ys, ?_, hg, hk⟩
      simp only [Statement.tokens, List.append_assoc, List.cons_append]
    rintro (h | h | h | ⟨cluster, us, rfl, hg, h⟩)
    · obtain ⟨ifWord, us, rfl, condition, vs, rfl, hg, thenBlock, ws, rfl, hg', hk⟩ :=
        (leafAhead_iff ..).mp h
      rcases hk with hk | hk
      · refine ⟨.choice ifWord condition thenBlock, ws, ?_, ⟨hg, hg'⟩, hk⟩
        simp only [Statement.tokens, List.append_assoc, List.cons_append]
      · obtain ⟨elseWord, xs, rfl, elseBlock, ys, rfl, hg'', hk⟩ := (leafAhead_iff ..).mp hk
        refine ⟨.choiceElse ifWord condition thenBlock elseWord elseBlock, ys, ?_,
          ⟨hg, hg', hg''⟩, hk⟩
        simp only [Statement.tokens, List.append_assoc, List.cons_append]
    · obtain ⟨whileWord, us, rfl, condition, vs, rfl, hg, body, ws, rfl, hg', hk⟩ :=
        (leafAhead_iff ..).mp h
      refine ⟨.loop whileWord condition body, ws, ?_, ⟨hg, hg'⟩, hk⟩
      simp only [Statement.tokens, List.append_assoc, List.cons_append]
    · obtain ⟨letWord, us, rfl, hb | hb⟩ := (leafAhead_iff ..).mp h
      · exact build letWord none us hb
      · obtain ⟨macroWord, vs, rfl, hm⟩ := (leafAhead_iff ..).mp hb
        exact build letWord (some macroWord) vs hm
    · exact ⟨.cluster cluster, us, rfl, hg, h⟩

/-! ## First tokens -/

variable {t : Token} {ts : List Token}

/-- What an operand begins with, its sign apart. -/
theorem mem_primary {k : Behind Node} (h : primaryAhead k (t :: ts)) :
    t.terminal ∈ Parse.Expected.primary := by
  have hl : literalSorts ⊆ Parse.Expected.primary := by decide
  rw [primaryAhead_iff] at h
  rcases h with h | h | h
  · rw [List.mem_singleton.mp h.1]; decide
  · exact hl h.1
  · rw [List.mem_singleton.mp h.1]; decide

/-- What a run begins with. -/
theorem mem_operand {k : Behind (Node × List (Pair Node))} (h : runAhead k (t :: ts)) :
    t.terminal ∈ Parse.Expected.operand := by
  rw [runAhead_iff] at h
  rcases h with h | h
  · exact List.mem_cons_of_mem _ (mem_primary h)
  · rw [List.mem_singleton.mp h.1]; decide

/-- What an expression begins with. -/
theorem mem_expr {k : Behind Node} (h : exprAhead k (t :: ts)) :
    t.terminal ∈ Parse.Expected.expr := by
  rw [exprAhead_iff] at h
  rcases h with h | h
  · exact List.mem_cons_of_mem _ (mem_operand h)
  · rw [List.mem_singleton.mp h.1]; decide

/-- What a cluster begins with. -/
theorem mem_cluster {k : Behind Node} (h : clusterAhead k (t :: ts)) :
    t.terminal ∈ Parse.Expected.cluster := by
  rw [clusterAhead_iff, enclosedAhead_cons] at h
  rcases h with h | h | h
  · exact List.mem_cons_of_mem _ (List.mem_cons_of_mem _ (mem_expr h))
  · rw [h.1]; decide
  · rw [h.1]; decide

/-- What a statement begins with. -/
theorem mem_stmt {k : Behind Node} (h : statementAhead k (t :: ts)) :
    t.terminal ∈ Parse.Expected.stmt := by
  have hc : Parse.Expected.cluster ⊆ Parse.Expected.stmt := by decide
  rw [statementAhead_iff] at h
  rcases h with h | h | h | h
  · rw [List.mem_singleton.mp h.1]; decide
  · rw [List.mem_singleton.mp h.1]; decide
  · rw [List.mem_singleton.mp h.1]; decide
  · exact hc (mem_cluster h)

/-! ## No tokens -/

@[simp] theorem primaryAhead_nil (k : Behind Node) : primaryAhead k [] ↔ False := by
  simp only [primaryAhead_iff, leafAhead_nil, or_self]

@[simp] theorem runAhead_nil (k : Behind (Node × List (Pair Node))) :
    runAhead k [] ↔ False := by
  simp only [runAhead_iff, factorAhead, primaryAhead_nil, leafAhead_nil, or_self]

@[simp] theorem exprAhead_nil (k : Behind Node) : exprAhead k [] ↔ False := by
  simp only [exprAhead_iff, runAhead_nil, leafAhead_nil, or_self]

@[simp] theorem enclosedAhead_nil (k : Behind Node) : enclosedAhead k [] ↔ False := by
  simp only [enclosedAhead_iff, leafAhead_nil, exists_false]

@[simp] theorem clusterAhead_nil (k : Behind Node) : clusterAhead k [] ↔ False := by
  simp only [clusterAhead_iff, exprAhead_nil, enclosedAhead_nil, or_self]

@[simp] theorem statementAhead_nil (k : Behind Node) : statementAhead k [] ↔ False := by
  simp only [statementAhead_iff, clusterAhead_nil, leafAhead_nil, or_self]

@[simp] theorem itemsBehind_nil (form : Enclosure) (k : Behind (List Node)) :
    itemsBehind form k [] ↔ False := by
  simp only [itemsBehind, leafAhead_nil, or_self]

@[simp] theorem itemsAhead_nil (form : Enclosure) (k : Behind (List Node)) :
    itemsAhead form k [] ↔ False := by
  simp only [itemsAhead_iff, itemsBehind_nil, statementAhead_nil, or_self]

@[simp] theorem chainAhead_nil (k : Behind (List Node)) : chainAhead k [] ↔ k [] [] := by
  simp only [chainAhead_iff, ChainEnds, Stops, leafAhead_nil, enclosedAhead_nil, true_and, or_false]

@[simp] theorem namesAhead_nil (k : Behind (List Binder)) : namesAhead k [] ↔ k [] [] := by
  simp only [namesAhead_iff, leafAhead_nil, or_false]

/-! ## Lines -/

theorem linesAhead_iff (k : List Node → Prop) (ts : List Token) :
    linesAhead k ts ↔ (ts = [] ∧ k []) ∨
      leafAhead [.separator] (fun _ => linesAhead fun ns => k (.null :: ns)) ts ∨
      statementAhead (fun n => leafAhead [.separator]
        fun _ => linesAhead fun ns => k (n :: ns)) ts := by
  constructor
  · rintro ⟨d, rfl, hg, h⟩
    cases d with
    | nil => exact Or.inl ⟨rfl, h⟩
    | cons line rest =>
        obtain ⟨statement, separator⟩ := line
        cases statement with
        | none => exact Or.inr (Or.inl ⟨separator.fits, rest, rfl, hg.2, h⟩)
        | some statement =>
            exact Or.inr (Or.inr ⟨statement, separator.token :: Derivation.tokens rest,
              List.append_assoc statement.tokens [separator.token] _, hg.1 statement rfl,
              separator.fits, rest, rfl, hg.2, h⟩)
  · rintro (⟨rfl, h⟩ | h | ⟨statement, us, rfl, hg, h⟩)
    · exact ⟨[], rfl, trivial, h⟩
    · obtain ⟨separator, us, rfl, rest, rfl, hg, hk⟩ := (leafAhead_iff ..).mp h
      exact ⟨⟨none, separator⟩ :: rest, rfl, ⟨nofun, hg⟩, hk⟩
    · obtain ⟨separator, us, rfl, rest, rfl, hg', hk⟩ := (leafAhead_iff ..).mp h
      refine ⟨⟨some statement, separator⟩ :: rest,
        (List.append_assoc statement.tokens [separator.token] _).symm, ⟨?_, hg'⟩, hk⟩
      intro s hs
      rw [← Option.some.inj hs]
      exact hg

end BasicSyntax.Grammar
