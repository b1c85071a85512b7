import BasicSyntax.Node.Source
import BasicSyntax.Proofs.Agreement
import BasicSyntax.Proofs.Fold
import BasicSyntax.Proofs.Grammar
import BasicSyntax.Proofs.Source.Piece
import BasicSyntax.Proofs.WellFormed

/-! # Derived nodes — tokens that derive what agrees with a node

    For each sort of part of the grammar there is a description of tokens: that they have a
    derivation of that sort, that its abstract syntax agrees with a given node, and that it is
    greedy whatever follows from which it can be told apart.  The rules of the grammar become
    steps between these descriptions, and no derivation is written out anywhere else.

    A run of operands also keeps track of the operators in it.  Two runs with an operator
    between them are one run, and it folds to the two joined by the operator if all on the left
    bind before it and it binds before none on the right (`asRun_binary`).  That is what the
    brackets of the source form are for. -/

namespace BasicSyntax

/-! ## Brackets and the fold -/

/-- On the left of an operator, brackets stand around what does not bind before it. -/
theorem Node.regroupsLeft_binary (l r : Node) {inner op : Operator} :
    (binary l inner r).regroupsLeft op = !inner.bindsBefore op := by
  rw [regroupsLeft, Operator.bindsBefore]
  rcases Int.lt_trichotomy inner.symbol.priority op.symbol.priority with hlt | heq | hgt
  · simp [hlt, Int.lt_asymm hlt, Int.ne_of_lt hlt]
  · simp [heq]
  · simp [hgt, Int.lt_asymm hgt, Int.ne_of_gt hgt]

/-- On the right of an operator, brackets stand around what it binds before. -/
theorem Node.regroupsRight_binary (l r : Node) {inner op : Operator} :
    (binary l inner r).regroupsRight op = op.bindsBefore inner := by
  rw [Bool.eq_iff_iff, Operator.bindsBefore_iff, regroupsRight, Bool.or_eq_true_iff,
    decide_eq_true_iff, Bool.and_eq_true_iff, beq_iff_eq, eq_comm]
  -- beside an operator of its own priority, either may be asked for its side
  refine or_congr_right (and_congr_right fun heq => ?_)
  rw [Symbol.leftAssoc_priority heq]

namespace Grammar

/-! ## Descriptions -/

/-- Tokens have a derivation of a sort, with a property, that is greedy before what `follows`
    allows. -/
def Derives {δ : Type} (tokens : δ → List Token) (Greedy : δ → List Token → Prop)
    (follows : List Token → Prop) (like : δ → Prop) (ts : List Token) : Prop :=
  ∃ d, tokens d = ts ∧ like d ∧ ∀ next, follows next → Greedy d next

/-- Tokens of an operand that agrees with a node. -/
def AsPrimary (n : Node) : List Token → Prop :=
  Derives Primary.tokens Primary.Greedy ChainEnds fun d => d.node.agrees n = true

/-- Tokens of an operand that agrees with a node, and behind which anything may stand. -/
def AsCondition (n : Node) : List Token → Prop :=
  Derives Primary.tokens Primary.Greedy (fun _ => True) fun d => d.node.agrees n = true

/-- Tokens of a run that folds to what agrees with a node, with operators of a class. -/
def AsRun (among : Operator → Prop) (n : Node) : List Token → Prop :=
  Derives Run.tokens Run.Greedy ChainEnds fun d =>
    (resolve d.operands.1 d.operands.2).agrees n = true ∧ ∀ p ∈ d.operands.2, among p.1

/-- Tokens of an expression that agrees with a node. -/
def AsExpr (n : Node) : List Token → Prop :=
  Derives Expr.tokens Expr.Greedy ChainEnds fun d => d.node.agrees n = true

/-- Tokens of statements between brackets that agree with a node. -/
def AsEnclosed (n : Node) : List Token → Prop :=
  Derives Enclosed.tokens Enclosed.Greedy (fun _ => True) fun d => d.node.agrees n = true

/-- Tokens of a cluster that agrees with a node. -/
def AsCluster (n : Node) : List Token → Prop :=
  Derives Cluster.tokens Cluster.Greedy ChainEnds fun d => d.node.agrees n = true

/-- Tokens of a statement that agrees with a node. -/
def AsStatement (n : Node) : List Token → Prop :=
  Derives Statement.tokens Statement.Greedy ChainEnds fun d => d.node.agrees n = true

/-- Tokens that stand between brackets, of statements that agree with nodes. -/
def AsItems (ns : List Node) : List Token → Prop :=
  Derives Items.tokens Items.Greedy ChainEnds fun d => Node.allAgree d.nodes ns = true

/-- Tokens of a chain whose arguments agree with nodes. -/
def AsChain (ns : List Node) : List Token → Prop :=
  Derives Chain.tokens Chain.Greedy ChainEnds fun d => Node.allAgree d.nodes ns = true

/-- Tokens of a program whose entries agree with nodes. -/
def AsProgram (ns : List Node) (ts : List Token) : Prop :=
  ∃ d : Derivation, d.tokens = ts ∧ d.Greedy ∧ Node.allAgree d.nodes ns = true

/-- Tokens that make an argument of a chain, in front of any others. -/
def AsArgument (n : Node) (ts : List Token) : Prop :=
  ∀ ns us, AsChain ns us → AsChain (n :: ns) (ts ++ us)

/-- A token of a sort that is an argument by itself. -/
def AsWord (k : Terminal) (n : Node) (ts : List Token) : Prop :=
  ∃ t : Token, ts = [t] ∧ t.terminal = k ∧ (wordNode t).agrees n = true

/-- Tokens of an expression in brackets that agrees with a node. -/
def AsGroup (n : Node) : List Token → Prop :=
  Followed (Followed (Single .openParen "(") (AsExpr n)) (Single .closeParen ")")

/-- A token that is a name. -/
abbrev AsName (b : Binder) : List Token → Prop := Single .identifier b.text

/-- The words that a binding begins with. -/
def AsKeyword (form : BindingForm) (ts : List Token) : Prop :=
  ∃ (letWord : Leaf [.letWord]) (macroWord : Option (Leaf [.macroWord])),
    ts = letWord.token :: optionTokens macroWord ∧ bindingForm macroWord = form

/-! ## Words and groups -/

variable {n : Node} {ns : List Node} {ts : List Token}

/-- A token of a sort as a leaf. -/
def leafOf {k : Terminal} (t : Token) (h : t.terminal = k) : Leaf [k] :=
  ⟨t, List.mem_singleton.mpr h⟩

theorem wordNode_name {t : Token} (h : t.terminal = .identifier) :
    wordNode t = .binder (Parse.binderOf t) := by
  rw [wordNode, h]

theorem wordNode_literal {t : Token} (h : t.terminal ∈ literalSorts) :
    wordNode t = Parse.literalOf t := by
  rcases List.mem_cons.mp h with h | h
  · rw [wordNode, h]
  · rw [wordNode, List.mem_singleton.mp h]

theorem AsWord.primary (h : AsWord .identifier n ts) : AsPrimary n ts := by
  obtain ⟨t, rfl, ht, hn⟩ := h
  rw [wordNode_name ht] at hn
  exact ⟨.applied (leafOf t ht) .done, rfl, hn, fun _ hnext => hnext⟩

theorem AsWord.condition {k : Terminal} (hk : k ∈ literalSorts) (h : AsWord k n ts) :
    AsCondition n ts := by
  obtain ⟨t, rfl, rfl, hn⟩ := h
  rw [wordNode_literal hk] at hn
  exact ⟨.literal ⟨t, hk⟩, rfl, hn, fun _ _ => trivial⟩

theorem AsWord.argument {k : Terminal} (hk : k ∈ wordSorts) (h : AsWord k n ts) :
    AsArgument n ts := by
  obtain ⟨t, rfl, rfl, hn⟩ := h
  rintro ns us ⟨rest, rfl, hns, hg⟩
  exact ⟨.word ⟨t, hk⟩ rest, rfl, Node.agrees_nodes_cons hn hns, hg⟩

theorem AsGroup.condition (h : AsGroup n ts) : AsCondition n ts := by
  obtain ⟨-, -, rfl, ⟨-, us, rfl, ⟨opening, rfl, ho, -⟩, expr, rfl, hn, hg⟩,
    closing, rfl, hc, -⟩ := h
  refine ⟨.group (leafOf opening ho) expr (leafOf closing hc), rfl, hn, fun next _ => hg _ ?_⟩
  -- the closing bracket ends the chain in front of it; behind it anything may stand
  show closing.terminal ∉ postfixSorts
  rw [hc]
  decide

theorem AsGroup.argument (h : AsGroup n ts) : AsArgument n ts := by
  obtain ⟨-, -, rfl, ⟨-, us, rfl, ⟨opening, rfl, ho, -⟩, expr, rfl, hn, hg⟩,
    closing, rfl, hc, -⟩ := h
  rintro ns us ⟨rest, rfl, hns, hrest⟩
  refine ⟨.group (leafOf opening ho) expr (leafOf closing hc) rest, ?_,
    Node.agrees_nodes_cons hn hns, fun next hnext => ⟨hg _ ?_, hrest next hnext⟩⟩
  · show opening :: (expr.tokens ++ closing :: rest.tokens) = _
    rw [List.append_assoc, List.append_assoc]
    rfl
  · show closing.terminal ∉ postfixSorts
    rw [hc]
    decide

/-! ## Sorts within sorts -/

theorem AsCondition.primary (h : AsCondition n ts) : AsPrimary n ts := by
  obtain ⟨d, ht, hn, hg⟩ := h
  exact ⟨d, ht, hn, fun next _ => hg next trivial⟩

theorem AsPrimary.run (among : Operator → Prop) (h : AsPrimary n ts) : AsRun among n ts := by
  obtain ⟨d, ht, hn, hg⟩ := h
  exact ⟨.last none d, ht, ⟨hn, nofun⟩, hg⟩

theorem AsRun.among {among among' : Operator → Prop} (h : AsRun among n ts)
    (himp : ∀ op, among op → among' op) : AsRun among' n ts := by
  obtain ⟨d, ht, ⟨hn, hop⟩, hg⟩ := h
  exact ⟨d, ht, ⟨hn, fun p hp => himp p.1 (hop p hp)⟩, hg⟩

theorem AsRun.expr {among : Operator → Prop} (h : AsRun among n ts) : AsExpr n ts := by
  obtain ⟨d, ht, ⟨hn, -⟩, hg⟩ := h
  exact ⟨.run d, ht, hn, hg⟩

theorem AsExpr.cluster (h : AsExpr n ts) : AsCluster n ts := by
  obtain ⟨d, ht, hn, hg⟩ := h
  exact ⟨.expr d, ht, hn, hg⟩

theorem AsEnclosed.cluster (h : AsEnclosed n ts) : AsCluster n ts := by
  obtain ⟨d, ht, hn, hg⟩ := h
  exact ⟨.enclosed d, ht, hn, fun next _ => hg next trivial⟩

theorem AsEnclosed.argument (h : AsEnclosed n ts) : AsArgument n ts := by
  obtain ⟨d, rfl, hn, hg⟩ := h
  rintro ns us ⟨rest, rfl, hns, hrest⟩
  exact ⟨.enclosed d rest, rfl, Node.agrees_nodes_cons hn hns,
    fun next hnext => ⟨hg _ trivial, hrest next hnext⟩⟩

theorem AsCluster.statement (h : AsCluster n ts) : AsStatement n ts := by
  obtain ⟨d, ht, hn, hg⟩ := h
  exact ⟨.cluster d, ht, hn, hg⟩

/-! ## Runs -/

/-- Two runs with an operator between them. -/
def Run.join : Run → Leaf operatorSorts → Run → Run
  | .last sign primary, op, right => .cons sign primary op right
  | .cons sign primary op' rest, op, right => .cons sign primary op' (rest.join op right)

theorem Run.join_tokens (op : Leaf operatorSorts) (right : Run) : ∀ left : Run,
    (left.join op right).tokens = left.tokens ++ op.token :: right.tokens
  | .last sign primary => (List.append_assoc ..).symm
  | .cons sign primary op' rest => by
      show _ ++ (_ ++ _ :: (rest.join op right).tokens) = (_ ++ (_ ++ _ :: rest.tokens)) ++ _
      rw [Run.join_tokens op right rest, List.append_assoc, List.append_assoc]
      rfl

theorem Run.join_operands (op : Leaf operatorSorts) (right : Run) : ∀ left : Run,
    (left.join op right).operands = (left.operands.1, left.operands.2 ++
      (Parse.operatorOf op.token, right.operands.1) :: right.operands.2)
  | .last sign primary => rfl
  | .cons sign primary op' rest => by
      show (_, (_, (rest.join op right).operands.1) :: (rest.join op right).operands.2) = _
      rw [Run.join_operands op right rest]
      rfl

theorem Run.join_greedy {op : Leaf operatorSorts} {right : Run} {next : List Token}
    (hright : right.Greedy next) : ∀ left : Run,
      left.Greedy (op.token :: (right.tokens ++ next)) → (left.join op right).Greedy next
  | .last sign primary, h => ⟨h, hright⟩
  | .cons sign primary op' rest, h => by
      refine ⟨?_, Run.join_greedy hright rest h.2⟩
      rw [Run.join_tokens, List.append_assoc]
      exact h.1

/-- The operators that may stand in the run of a node: those that do not bind looser than the
    one the node joins its operands by. -/
def Admits : Node → Operator → Prop
  | .binary _ inner _, op => inner.symbol.priority ≤ op.symbol.priority
  | _, _ => False

/-- What stands on the left of an operator without brackets binds before it. -/
theorem binds_left {op op' : Operator} (hl : n.regroupsLeft op = false)
    (ha : Admits n op') : op'.bindsBefore op = true := by
  cases n
  case binary left inner right =>
    rw [Node.regroupsLeft_binary, Bool.not_eq_false'] at hl
    exact Operator.bindsBefore_tighter hl ha
  all_goals exact ha.elim

/-- What stands on the right of an operator without brackets does not bind after it. -/
theorem binds_right {op op' : Operator} (hr : n.regroupsRight op = false)
    (ha : Admits n op') : op.bindsBefore op' = false := by
  cases n
  case binary left inner right =>
    rw [Node.regroupsRight_binary] at hr
    refine Bool.eq_false_iff.mpr fun hb => ?_
    exact Bool.eq_false_iff.mp hr (Operator.bindsBefore_looser hb ha)
  all_goals exact ha.elim

/-- The tokens of a sign and an operand. -/
theorem asRun_negative (among : Operator → Prop)
    (h : Followed (Single .minus "-") (AsPrimary n) ts) : AsRun among (.negative n) ts := by
  obtain ⟨-, -, rfl, ⟨t, rfl, ht, -⟩, d, rfl, hn, hg⟩ := h
  exact ⟨.last (some (leafOf t ht)) d, rfl, ⟨Node.agrees_negative hn, nofun⟩, hg⟩

/-- A token that joins operands as an operator does. -/
def AsOperator (op : Operator) (ts : List Token) : Prop :=
  ∃ t : Token, ts = [t] ∧ t.terminal ∈ operatorSorts ∧ (Parse.operatorOf t).symbol = op.symbol

/-- **JOINING**: two runs with an operator between them are a run of the joined nodes, if all
    operators on the left bind before it and it binds before none on the right. -/
theorem asRun_binary {left right : Node} {op : Operator}
    (h : Followed (Followed (AsRun (·.bindsBefore op = true) left) (AsOperator op))
      (AsRun (op.bindsBefore · = false) right) ts) :
    AsRun (Admits (.binary left op right)) (.binary left op right) ts := by
  obtain ⟨-, -, rfl, ⟨-, -, rfl, ⟨l, rfl, ⟨hln, hlop⟩, hlg⟩, t, rfl, ht, hsym⟩,
    r, rfl, ⟨hrn, hrop⟩, hrg⟩ := h
  -- the operator that is read has another position, which binding does not look at
  have hl : ∀ p ∈ l.operands.2, p.1.bindsBefore (Parse.operatorOf t) = true := by
    intro p hp
    rw [Fold.bindsBefore_symbols rfl hsym]
    exact hlop p hp
  have hr : ∀ p ∈ r.operands.2, (Parse.operatorOf t).bindsBefore p.1 = false := by
    intro p hp
    rw [Fold.bindsBefore_symbols hsym rfl]
    exact hrop p hp
  refine ⟨l.join ⟨t, ht⟩ r, ?_, ⟨?_, ?_⟩, fun next hnext => Run.join_greedy (hrg next hnext) l
    (hlg _ ?_)⟩
  · rw [Run.join_tokens, List.append_assoc]
    rfl
  · rw [Run.join_operands]
    show Node.agrees (resolveBy Node.binary _ _) _ = true
    rw [Fold.resolveBy_split hl hr]
    exact Node.agrees_binary hln hsym hrn
  · rw [Run.join_operands]
    intro p hp
    show op.symbol.priority ≤ p.1.symbol.priority
    rcases List.mem_append.mp hp with hp | hp
    -- what binds before `op` is at least as tight, and so is what `op` does not bind before
    · exact Operator.priority_of_binds (hlop p hp)
    · rcases List.mem_cons.mp hp with rfl | hp
      · exact Int.le_of_eq (congrArg Symbol.priority hsym.symm)
      · exact Operator.priority_of_not_binds (hrop p hp)
  · show t.terminal ∉ postfixSorts
    intro hm
    exact absurd hm ((by decide : ∀ k ∈ operatorSorts, k ∉ postfixSorts) _ ht)

/-! ## Names, arguments and functions -/

/-- Tokens that are names are the names of leaves. -/
theorem asNames : ∀ {bs : List Binder} {ts : List Token}, Each (bs.map AsName) ts →
    ∃ leaves : List (Leaf [.identifier]), leafTokens leaves = ts ∧
      (names leaves).map Binder.text = bs.map Binder.text := by
  intro bs
  induction bs with
  | nil =>
      rintro ts rfl
      exact ⟨[], rfl, rfl⟩
  | cons b bs ih =>
      rintro ts ⟨-, us, rfl, ⟨t, rfl, ht, htext⟩, hus⟩
      obtain ⟨leaves, rfl, hnames⟩ := ih hus
      exact ⟨leafOf t ht :: leaves, rfl, List.cons_eq_cons.mpr ⟨htext, hnames⟩⟩

/-- Arguments one behind the other are a chain. -/
theorem asChain : ∀ {ns : List Node} {ts : List Token}, Each (ns.map AsArgument) ts →
    AsChain ns ts := by
  intro ns
  induction ns with
  | nil =>
      rintro ts rfl
      exact ⟨.done, rfl, Node.agrees_nodes_nil, fun _ hnext => hnext⟩
  | cons n ns ih =>
      rintro ts ⟨us, vs, rfl, hus, hvs⟩
      exact hus ns vs (ih hvs)

theorem applicationNode_arguments (callee : Binder) (hne : ns ≠ []) :
    applicationNode callee ns = .application (.binder callee) ns := by
  cases ns with
  | nil => exact absurd rfl hne
  | cons n ns => rfl

theorem asPrimary_application {b : Binder} {arguments : List Node} (hne : arguments ≠ [])
    (h : Each (AsName b :: arguments.map AsArgument) ts) :
    AsPrimary (.application (.binder b) arguments) ts := by
  obtain ⟨-, us, rfl, ⟨t, rfl, ht, htext⟩, hus⟩ := h
  obtain ⟨d, rfl, hns, hg⟩ := asChain hus
  -- without arguments it would be the name itself
  have hnodes : d.nodes ≠ [] := by
    intro hd
    rw [hd] at hns
    cases arguments with
    | nil => exact hne rfl
    | cons n ns => exact nomatch hns
  refine ⟨.applied (leafOf t ht) d, rfl, ?_, hg⟩
  show (applicationNode (Parse.binderOf t) d.nodes).agrees _ = true
  rw [applicationNode_arguments _ hnodes]
  exact Node.agrees_application (Node.agrees_binder htext) hns

theorem asExpr_function {params : List Binder} {body : Node} (pos : Option Position)
    (hne : params ≠ [])
    (h : Followed (Followed (Followed (Single .funWord "fun") (Each (params.map AsName)))
      (Single .arrow "->")) (AsCluster body) ts) :
    AsExpr (.function (params.map fun b => (b, none)) body pos) ts := by
  obtain ⟨-, -, rfl, ⟨-, -, rfl, ⟨-, us, rfl, ⟨funWord, rfl, hf, -⟩, hus⟩, arrow, rfl, ha, -⟩,
    d, rfl, hn, hg⟩ := h
  obtain ⟨leaves, rfl, hnames⟩ := asNames hus
  cases leaves with
  | nil => exact absurd (List.map_eq_nil_iff.mp hnames.symm) hne
  | cons param params' =>
      refine ⟨.function (leafOf funWord hf) param params' (leafOf arrow ha) d, ?_,
        Node.agrees_function _ _ hnames hn, hg⟩
      show _ = ([funWord] ++ leafTokens (param :: params') ++ [arrow]) ++ d.tokens
      rw [List.append_assoc, List.append_assoc]
      rfl

/-! ## Statements -/

theorem asStatement_conditional {condition thenBlock : Node}
    (h : Followed (Followed (Single .ifWord "if") (AsCondition condition))
      (AsCluster thenBlock) ts) : AsStatement (.conditional condition thenBlock none) ts := by
  obtain ⟨-, -, rfl, ⟨-, -, rfl, ⟨ifWord, rfl, hw, -⟩, c, rfl, hc, hcg⟩, d, rfl, hd, hdg⟩ := h
  exact ⟨.choice (leafOf ifWord hw) c d, rfl, Node.agrees_conditional hc hd,
    fun next hnext => ⟨hcg _ trivial, hdg next hnext⟩⟩

theorem asStatement_conditionalElse {condition thenBlock elseBlock : Node}
    (h : Followed (Followed (Followed (Followed (Single .ifWord "if") (AsCondition condition))
      (AsCluster thenBlock)) (Single .elseWord "else")) (AsCluster elseBlock) ts) :
    AsStatement (.conditional condition thenBlock (some elseBlock)) ts := by
  obtain ⟨-, -, rfl, ⟨-, -, rfl, ⟨-, -, rfl, ⟨-, -, rfl, ⟨ifWord, rfl, hw, -⟩, c, rfl, hc, hcg⟩,
    d, rfl, hd, hdg⟩, elseWord, rfl, he, -⟩, e, rfl, hn, heg⟩ := h
  refine ⟨.choiceElse (leafOf ifWord hw) c d (leafOf elseWord he) e, ?_,
    Node.agrees_conditionalElse hc hd hn,
    fun next hnext => ⟨hcg _ trivial, hdg _ ?_, heg next hnext⟩⟩
  · show _ = (([ifWord] ++ c.tokens) ++ d.tokens ++ [elseWord]) ++ e.tokens
    rw [List.append_assoc, List.append_assoc, List.append_assoc]
    rfl
  · show elseWord.terminal ∉ postfixSorts
    rw [he]
    decide

theorem asStatement_loop {condition body : Node}
    (h : Followed (Followed (Single .whileWord "while") (AsCondition condition))
      (AsCluster body) ts) : AsStatement (.loop condition body) ts := by
  obtain ⟨-, -, rfl, ⟨-, -, rfl, ⟨whileWord, rfl, hw, -⟩, c, rfl, hc, hcg⟩, d, rfl, hd, hdg⟩ := h
  exact ⟨.loop (leafOf whileWord hw) c d, rfl, Node.agrees_loop hc hd,
    fun next hnext => ⟨hcg _ trivial, hdg next hnext⟩⟩

/-- The parameters of a binding, as they are written and as they are read. -/
theorem paramList_agrees {params : Option (List Binder)} {bs : List Binder}
    (hne : ∀ ps ∈ params, ps ≠ [])
    (h : bs.map Binder.text = (params.getD []).map Binder.text) :
    (paramList bs).map (·.map Binder.text) = params.map (·.map Binder.text) := by
  cases params with
  | none =>
      rw [List.map_eq_nil_iff.mp h]
      rfl
  | some ps =>
      cases bs with
      | nil => exact absurd (List.map_eq_nil_iff.mp h.symm) (hne ps rfl)
      | cons b bs => exact congrArg some h

theorem asStatement_binding {form : BindingForm} {named : Binder}
    {params : Option (List Binder)} {codes : Node} (hne : ∀ ps ∈ params, ps ≠ [])
    (h : Followed (Followed (Each (AsKeyword form :: AsName named ::
      (params.getD []).map AsName)) (Single .equals "=")) (AsCluster codes) ts) :
    AsStatement (.binding form named params codes) ts := by
  obtain ⟨-, -, rfl, ⟨-, -, rfl, ⟨-, -, rfl, ⟨letWord, macroWord, rfl, rfl⟩, -, us, rfl,
    ⟨t, rfl, ht, htext⟩, hus⟩, equals, rfl, he, -⟩, d, rfl, hn, hg⟩ := h
  obtain ⟨leaves, rfl, hnames⟩ := asNames hus
  refine ⟨.binding letWord macroWord (leafOf t ht) leaves (leafOf equals he) d, ?_,
    Node.agrees_binding _ htext (paramList_agrees hne hnames) hn, hg⟩
  show _ = (letWord.token :: optionTokens macroWord ++ ([t] ++ leafTokens leaves) ++
    [equals]) ++ d.tokens
  simp only [List.cons_append, List.append_assoc]
  rfl

/-! ## Statements between brackets and programs -/

theorem asItems_nil : AsItems [] [] :=
  ⟨.empty, rfl, Node.agrees_nodes_nil, fun _ _ => trivial⟩

/-- A separator stops every chain. -/
theorem separator_maximal {t : Token} (h : t.terminal = .separator) (next : List Token) :
    ChainEnds (t :: next) := by
  show t.terminal ∉ postfixSorts
  rw [h]
  decide

theorem asItems_cons (h : Followed (Followed (AsStatement n) (Single .separator "\n"))
    (AsItems ns) ts) : AsItems (n :: ns) ts := by
  obtain ⟨-, -, rfl, ⟨-, -, rfl, ⟨d, rfl, hn, hg⟩, t, rfl, ht, -⟩, rest, rfl, hns, hrest⟩ := h
  refine ⟨.cons d (leafOf t ht) rest, ?_, Node.agrees_nodes_cons hn hns,
    fun next hnext => ⟨hg _ (separator_maximal ht _), hrest next hnext⟩⟩
  rw [List.append_assoc]
  rfl

/-- Empty brackets. -/
theorem asEnclosed_nil (form : Enclosure)
    (h : Followed (Single form.opener form.opening) (Single form.closer form.closing) ts) :
    AsEnclosed (.enclosed form []) ts := by
  obtain ⟨-, -, rfl, ⟨opening, rfl, ho, -⟩, closing, rfl, hc, -⟩ := h
  exact ⟨.make form (leafOf opening ho) .empty (leafOf closing hc), rfl,
    Node.agrees_enclosed form Node.agrees_nodes_nil, fun _ _ => trivial⟩

/-- Brackets around lines, behind a newline of their own. -/
theorem asEnclosed_lines (form : Enclosure)
    (h : Followed (Followed (Followed (Single form.opener form.opening)
      (Single .separator "\n")) (AsItems ns)) (Single form.closer form.closing) ts) :
    AsEnclosed (.enclosed form ns) ts := by
  obtain ⟨-, -, rfl, ⟨-, -, rfl, ⟨-, -, rfl, ⟨opening, rfl, ho, -⟩, t, rfl, ht, -⟩,
    d, rfl, hns, hg⟩, closing, rfl, hc, -⟩ := h
  -- the newline behind the opening bracket is a separator with no statement before it
  refine ⟨.make form (leafOf opening ho) (.skip (leafOf t ht) d) (leafOf closing hc), rfl,
    Node.agrees_enclosed form hns, fun next _ => hg _ ?_⟩
  show closing.terminal ∉ postfixSorts
  rw [hc]
  cases form <;> decide

theorem asProgram_nil : AsProgram [] [] := ⟨[], rfl, trivial, Node.agrees_nodes_nil⟩

/-- A line in front of a program, empty or with a statement. -/
theorem asProgram_cons (h : Followed (Followed (fun us => us = [] ∧ n = .null ∨ AsStatement n us)
    (Single .separator "\n")) (AsProgram ns) ts) : AsProgram (n :: ns) ts := by
  obtain ⟨-, -, rfl, ⟨us, -, rfl, hus, t, rfl, ht, -⟩, rest, rfl, hg, hns⟩ := h
  rcases hus with ⟨rfl, rfl⟩ | ⟨d, rfl, hn, hd⟩
  · exact ⟨⟨none, leafOf t ht⟩ :: rest, rfl, ⟨nofun, hg⟩,
      Node.agrees_nodes_cons Node.agrees_null hns⟩
  · refine ⟨⟨some d, leafOf t ht⟩ :: rest, rfl, ⟨?_, hg⟩, Node.agrees_nodes_cons hn hns⟩
    intro statement hs
    obtain rfl := Option.some.inj hs
    exact hd _ (separator_maximal ht _)

end Grammar

end BasicSyntax
