import BasicSyntax.Proofs.Parse.Remainder

/-! # Derivatives — a token does to a state what it does to its remainder

    Each function that begins or completes a part is matched with the rule of the grammar for
    that part.  Together they give `leads_step`: a token is accepted with some tokens left to
    read exactly when the token followed by these is a remainder of the state.  Along a whole
    list of tokens this is `run_rest`. -/

namespace BasicSyntax.Parse

open Grammar

variable {out : List Node} {t : Token} {ts : List Token}

/-! ## Beginning a part -/

theorem begins_primary (c : PrimaryContext) :
    Begins out ts (beginPrimary? t c) ↔ primaryAhead (c.Rest out) (t :: ts) := by
  rw [primaryAhead_iff]
  cases h : t.terminal <;>
    simp [beginPrimary?, literalSorts, h, State.Rest, groupAhead, ExprContext.Rest]

theorem begins_operand (before : List (Node × Operator)) (c : ExprContext) :
    Begins out ts (beginOperand? t before c) ↔
      runAhead (fun r => c.Rest out (runWith before r)) (t :: ts) := by
  rw [runAhead_iff]
  unfold beginOperand? factorAhead
  by_cases h : t.terminal = .minus
  -- a minus begins no operand without a sign, so it is the sign
  · have hp : ¬ primaryAhead (runBehind fun r => c.Rest out (runWith before r)) (t :: ts) := by
      rw [primaryAhead_iff]
      simp [literalSorts, h]
    simp only [h, begins_some, hp, false_or, leafAhead_cons, List.mem_singleton, true_and]
    exact Iff.rfl
  · have hm : ¬ leafAhead [.minus] (fun _ => primaryAhead fun n =>
        runBehind (fun r => c.Rest out (runWith before r)) (.negative n)) (t :: ts) :=
      fun hl => h (List.mem_singleton.mp hl.1)
    rw [or_iff_left hm]
    split
    · contradiction
    · exact begins_primary (.operand before false c)

theorem begins_expr (c : ExprContext) :
    Begins out ts (beginExpr? t c) ↔ exprAhead (c.Rest out) (t :: ts) := by
  rw [exprAhead_iff]
  unfold beginExpr?
  by_cases h : t.terminal = .funWord
  · have hr : ¬ runAhead (fun r => c.Rest out (resolve r.1 r.2)) (t :: ts) := by
      rw [runAhead_iff, factorAhead, primaryAhead_iff]
      simp [literalSorts, h]
    simp only [h, begins_some, hr, false_or, leafAhead_cons, List.mem_singleton, true_and]
    exact Iff.rfl
  · rw [or_iff_left fun hl => h (List.mem_singleton.mp hl.1)]
    split
    · contradiction
    · exact begins_operand [] c

theorem begins_cluster (c : ClusterContext) :
    Begins out ts (beginCluster? t c) ↔ clusterAhead (c.Rest out) (t :: ts) := by
  have he : Begins out ts (beginExpr? t (.cluster c)) ↔ exprAhead (c.Rest out) (t :: ts) :=
    begins_expr (.cluster c)
  rw [clusterAhead_iff, enclosedAhead_cons, ← he]
  unfold beginCluster?
  split
  · next h =>
    simp only [beginExpr?, beginOperand?, beginPrimary?, h, begins_none, begins_some, true_and,
      reduceCtorEq, false_and, false_or, or_false]
    exact Iff.rfl
  · next h =>
    simp only [beginExpr?, beginOperand?, beginPrimary?, h, begins_none, begins_some, true_and,
      reduceCtorEq, false_and, false_or]
    exact Iff.rfl
  · next hb hs =>
    rw [or_iff_left]
    rintro (⟨h, -⟩ | ⟨h, -⟩)
    · exact hb h
    · exact hs h

/-- Where a cluster is ahead, it begins as clusters do. -/
theorem not_clusterAhead {k : Behind Node} (h : t.terminal ∉ Expected.cluster) :
    ¬ clusterAhead k (t :: ts) := fun hc => h (mem_cluster hc)

theorem begins_stmt (c : StmtContext) :
    Begins out ts (beginStmt? t c) ↔ statementAhead (c.Rest out) (t :: ts) := by
  rw [statementAhead_iff]
  unfold beginStmt?
  split
  · next h =>
    -- the words are no clusters, so the rule of the word is the only one
    have hn : ¬ clusterAhead (c.Rest out) (t :: ts) := not_clusterAhead (by rw [h]; decide)
    simp only [leafAhead_cons, h, List.mem_singleton, hn, true_and, reduceCtorEq, false_and,
      or_false]
    exact Iff.rfl
  · next h =>
    have hn : ¬ clusterAhead (c.Rest out) (t :: ts) := not_clusterAhead (by rw [h]; decide)
    simp only [leafAhead_cons, h, List.mem_singleton, hn, true_and, reduceCtorEq, false_and,
      or_false, false_or]
    exact Iff.rfl
  · next h =>
    have hn : ¬ clusterAhead (c.Rest out) (t :: ts) := not_clusterAhead (by rw [h]; decide)
    simp only [leafAhead_cons, h, List.mem_singleton, hn, true_and, reduceCtorEq, false_and,
      or_false, false_or]
    exact Iff.rfl
  · next hi hw hl =>
    rw [or_iff_right fun h => hi (List.mem_singleton.mp h.1),
      or_iff_right fun h => hw (List.mem_singleton.mp h.1),
      or_iff_right fun h => hl (List.mem_singleton.mp h.1)]
    exact begins_cluster (.stmt c)

/-- Behind a name or an argument: another argument, or the end of the chain. -/
theorem begins_argument (callee : Binder) (before : List Node) (b : Bool)
    (c : PrimaryContext) :
    State.Rest out (.applied callee before b c) (t :: ts) ↔
      Begins out ts (beginArgument? t callee before c) ∨ (t.terminal ∉ postfixSorts ∧
        c.Rest out (applicationNode callee before.reverse) (t :: ts)) := by
  rw [State.Rest, chainAhead_iff, enclosedAhead_cons, List.append_nil]
  simp only [reverse_append_cons, leafAhead_cons, ChainEnds, Stops]
  -- the chain and the reader both choose by the next token, one sort at a time
  cases h : t.terminal <;>
    simp [beginArgument?, wordNode, postfixSorts, wordSorts, h, State.Rest, groupAhead,
      ExprContext.Rest, EnclosedContext.Rest]

/-! ## Completing a part -/

theorem leads_closeItems (form : Enclosure) (items : List Node) (c : EnclosedContext) :
    Leads out ts (closeItems t form items c) ↔
      t.terminal = form.closer ∧ c.Rest out (.enclosed form items.reverse) ts := by
  unfold closeItems
  by_cases h : t.terminal = form.closer
  · rw [if_pos h]
    -- the brackets are now filled, and the context says of what they are a part
    cases c with
    | cluster c => exact ⟨fun hl => ⟨h, hl⟩, fun hl => hl.2⟩
    | argument callee before c =>
        simp only [putEnclosed, leads_ok, State.Rest, EnclosedContext.Rest, reverse_append_cons,
          h, true_and]
  · rw [if_neg h]
    exact ⟨fun hl => hl.elim, fun hl => absurd hl.1 h⟩

theorem leads_closeStmt (n : Node) (c : StmtContext) :
    Leads out ts (closeStmt t n c) ↔ c.Rest out n (t :: ts) := by
  unfold closeStmt
  rw [leads_require]
  cases c with
  | line before =>
      simp only [leads_require, leads_pure, State.Rest, StmtContext.Rest, leafAhead_cons,
        List.reverse_cons, List.append_assoc, List.singleton_append]
      constructor
      · rintro ⟨-, h⟩
        exact h
      · rintro ⟨h, hr⟩
        refine ⟨?_, h, hr⟩
        rw [List.mem_singleton.mp h]
        decide
  | item form fresh before outer =>
      -- a separator is no closing bracket, so at most one of the two ways is open
      have hne : Terminal.separator ≠ form.closer := by cases form <;> decide
      simp only [StmtContext.Rest, itemsBehind, leafAhead_cons, List.mem_singleton,
        reverse_append_cons, List.append_nil]
      by_cases h : t.terminal = .separator
      · simp only [h, if_true, leads_pure, State.Rest, hne, false_and, false_or, true_and]
        exact and_iff_right (by decide)
      · simp only [h, if_false, leads_closeItems, false_and, or_false]
        refine and_iff_right_of_imp fun hc => ?_
        rw [hc.1]
        cases form <;> decide

/-- What stands behind a statement. -/
theorem mem_afterStmt {n : Node} {c : StmtContext} (h : c.Rest out n (t :: ts)) :
    t.terminal ∈ Expected.afterStmt := by
  rw [← leads_closeStmt] at h
  unfold closeStmt at h
  exact ((leads_require ..).mp h).1

/-- What stands behind a statement may stand behind its last expression. -/
theorem mem_afterStmt_expr {n : Node} {c : StmtContext} (h : c.Rest out n (t :: ts)) :
    t.terminal ∈ Expected.afterExpr :=
  List.mem_cons_of_mem _ (List.mem_cons_of_mem _ (mem_afterStmt h))

mutual

/-- What stands behind a cluster. -/
theorem mem_afterCluster {n : Node} :
    ∀ {c : ClusterContext}, c.Rest out n (t :: ts) → t.terminal ∈ Expected.afterExpr
  | .stmt _, h => mem_afterStmt_expr h
  | .thenBlock _ _, h => by
      rcases h with h | h
      · exact mem_afterStmt_expr h
      · rw [List.mem_singleton.mp h.1]
        decide
  | .elseBlock _ _ _, h => mem_afterStmt_expr h
  | .loopBody _ _, h => mem_afterStmt_expr h
  | .codes _ _ _ _, h => mem_afterStmt_expr h
  | .functionBody _ _ c, h => mem_afterExpr (c := c) h

/-- What stands behind an expression. -/
theorem mem_afterExpr {n : Node} :
    ∀ {c : ExprContext}, c.Rest out n (t :: ts) → t.terminal ∈ Expected.afterExpr
  | .cluster c, h => mem_afterCluster (c := c) h
  | .group c, h => by
      rw [List.mem_singleton.mp h.1]
      decide
  | .argument callee before c, h => by
      rw [List.mem_singleton.mp h.1]
      decide

end

mutual

theorem leads_closeCluster (n : Node) :
    ∀ c : ClusterContext, Leads out ts (closeCluster t n c) ↔ c.Rest out n (t :: ts)
  | .stmt c => by
      rw [closeCluster]
      exact leads_closeStmt n c
  | .thenBlock condition c => by
      rw [closeCluster, leads_require]
      show _ ↔ thenBehind (c.Rest out) condition n (t :: ts)
      have hc : Leads out ts (closeStmt t (.conditional condition n none) c) ↔
          c.Rest out (.conditional condition n none) (t :: ts) := leads_closeStmt _ c
      rw [thenBehind, leafAhead_cons, List.mem_singleton, ← hc]
      by_cases h : t.terminal = .elseWord
      -- nothing else goes on with `else`, so the branch belongs to the innermost choice
      · have hn : ¬ Leads out ts (closeStmt t (.conditional condition n none) c) := by
          intro hl
          exact absurd (h ▸ mem_afterStmt (hc.mp hl)) (by decide)
        simp only [h, if_true, leads_pure, hn, false_or, true_and]
        exact and_iff_right (by decide)
      · simp only [h, if_false, false_and, or_false]
        exact and_iff_right_of_imp fun hl => List.mem_cons_of_mem _ (mem_afterStmt (hc.mp hl))
  | .elseBlock condition thenBlock c => by
      rw [closeCluster]
      exact leads_closeStmt _ c
  | .loopBody condition c => by
      rw [closeCluster]
      exact leads_closeStmt _ c
  | .codes form named params c => by
      rw [closeCluster, paramsOf_eq]
      exact leads_closeStmt _ c
  | .functionBody pos params c => by
      rw [closeCluster, leads_require, functionOf_eq, leads_closeExpr _ c]
      exact and_iff_right_of_imp mem_afterExpr

theorem leads_closeExpr (n : Node) :
    ∀ c : ExprContext, Leads out ts (closeExpr t n c) ↔ c.Rest out n (t :: ts)
  | .cluster c => by
      rw [closeExpr]
      exact leads_closeCluster n c
  | .group c => by
      rw [closeExpr, leads_require]
      exact Iff.rfl
  | .argument callee before c => by
      rw [closeExpr, leads_require]
      simp only [ExprContext.Rest, leafAhead_cons, reverse_append_cons, leads_pure, State.Rest]

end

theorem mem_operatorSorts {k : Terminal} :
    k ∈ operatorSorts ↔ k = .operator ∨ k = .minus := by
  rw [operatorSorts, List.mem_cons, List.mem_singleton]

/-- An operator does not stand behind an expression. -/
theorem operator_not_behind : ∀ k ∈ operatorSorts, k ∉ Expected.afterExpr := by decide

theorem leads_closePrimary (n : Node) (c : PrimaryContext) :
    Leads out ts (closePrimary t n c) ↔ c.Rest out n (t :: ts) := by
  cases c with
  | condition c =>
      rw [closePrimary, leads_begun]
      exact begins_cluster (.thenBlock n c)
  | loopCondition c =>
      rw [closePrimary, leads_begun]
      exact begins_cluster (.loopBody n c)
  | operand before negated c =>
      rw [closePrimary, leads_require]
      simp only [PrimaryContext.Rest, runBehind, leafAhead_cons, ← runOf_eq]
      rw [← leads_closeExpr]
      by_cases h : t.terminal ∈ operatorSorts
      -- an operator continues the run: no expression has one behind it
      · have hn : ¬ Leads out ts
            (closeExpr t (runOf before (if negated then .negative n else n)) c) := by
          intro hl
          exact operator_not_behind _ h (mem_afterExpr ((leads_closeExpr _ c).mp hl))
        have hm : operatorSorts ⊆ Expected.afterOperand := by decide
        rw [if_pos (mem_operatorSorts.mp h), or_iff_right hn, and_iff_right h, leads_pure,
          and_iff_right (hm h)]
        exact Iff.rfl
      · rw [if_neg ((not_congr mem_operatorSorts).mp h), or_iff_left fun hl => h hl.1]
        refine and_iff_right_of_imp fun hl => ?_
        exact List.mem_cons_of_mem _ (List.mem_cons_of_mem _
          (mem_afterExpr ((leads_closeExpr _ c).mp hl)))

/-! ## One token, and all of them -/

/-- What stands behind an operand. -/
theorem mem_afterPrimary {n : Node} {c : PrimaryContext} (h : c.Rest out n (t :: ts)) :
    t.terminal ∈ Expected.afterPrimary := by
  have hs : Expected.cluster ⊆ Expected.afterPrimary := by decide
  cases c with
  | condition c =>
      exact hs (mem_cluster h)
  | loopCondition c =>
      rw [PrimaryContext.Rest] at h
      exact hs (mem_cluster h)
  | operand before negated c =>
      rcases h with h | h
      · have he : Expected.afterExpr ⊆ Expected.afterPrimary := by decide
        exact he (mem_afterExpr h)
      · have ho : operatorSorts ⊆ Expected.afterPrimary := by decide
        exact ho h.1

theorem leads_stmt (c : StmtContext) :
    Leads out ts (step t (.stmt c)) ↔ State.Rest out (.stmt c) (t :: ts) := by
  have hb : Begins out ts (beginStmt? t c) ↔ statementAhead (c.Rest out) (t :: ts) :=
    begins_stmt c
  cases c with
  | line before =>
      rw [step, State.Rest, linesAhead_iff, leafAhead_cons, List.mem_singleton]
      simp only [List.cons_ne_nil, false_and, false_or]
      rw [StmtContext.Rest] at hb
      rw [← hb]
      by_cases h : t.terminal = .separator
      · have hn : ¬ Begins out ts (beginStmt? t (.line before)) := by
          simp [beginStmt?, beginCluster?, beginExpr?, beginOperand?, beginPrimary?, h]
        simp only [h, if_true, leads_ok, State.Rest, reverse_append_cons, hn, or_false, true_and]
      · simp only [h, if_false, leads_begun, false_and, false_or]
  | item form fresh before outer =>
      rw [step, leads_require, State.Rest, itemsAhead_iff]
      have hs : statementAhead (fun n => itemsBehind form fun ns =>
            outer.Rest out (.enclosed form (before.reverse ++ n :: ns))) (t :: ts) ↔
          Begins out ts (beginStmt? t (.item form fresh before outer)) := hb.symm
      have hm : Expected.stmt ⊆ (State.stmt (.item form fresh before outer)).expected := by
        cases fresh with
        | true => exact List.subset_cons_self ..
        | false => exact List.Subset.trans (List.subset_cons_self ..) (List.subset_cons_self ..)
      have hc : form.closer ∈ (State.stmt (.item form fresh before outer)).expected := by
        cases fresh with
        | true => exact List.mem_cons_self ..
        | false =>
            show form.closer ∈ Expected.laterItem
            cases form <;> decide
      rw [itemsBehind, leafAhead_cons, leafAhead_cons, List.mem_singleton, List.mem_singleton,
        hs, List.append_nil]
      by_cases h : t.terminal = .separator
      · have hn : ¬ Begins out ts (beginStmt? t (.item form fresh before outer)) := by
          simp [beginStmt?, beginCluster?, beginExpr?, beginOperand?, beginPrimary?, h]
        have hne : t.terminal ≠ form.closer := by rw [h]; cases form <;> decide
        rw [if_pos h, and_iff_right (hm (by rw [h]; decide)), or_iff_left hn,
          or_iff_right fun hl => hne hl.1, and_iff_right h]
        exact Iff.rfl
      · rw [if_neg h, or_iff_left (b := t.terminal = .separator ∧ _) fun hl => h hl.1]
        -- a closing bracket of the other form is refused, like anything that begins no
        -- statement
        by_cases h' : t.terminal = .closeBrace ∨ t.terminal = .closeSquare
        · have hn : ¬ Begins out ts (beginStmt? t (.item form fresh before outer)) := by
            rcases h' with h' | h' <;>
              simp [beginStmt?, beginCluster?, beginExpr?, beginOperand?, beginPrimary?, h']
          rw [if_pos h', leads_closeItems, or_iff_left hn]
          exact and_iff_right_of_imp fun hl => hl.1 ▸ hc
        · have hne : t.terminal ≠ form.closer := by
            cases form with
            | block => exact fun he => h' (Or.inl he)
            | scope => exact fun he => h' (Or.inr he)
          rw [if_neg h', leads_begun, or_iff_right fun hl => hne hl.1]
          exact and_iff_right_of_imp fun hl => hm (mem_stmt (hb.mp hl))

theorem leads_bindingHead (form : BindingForm) (c : StmtContext) :
    Leads out ts (step t (.bindingHead form c)) ↔
      State.Rest out (.bindingHead form c) (t :: ts) := by
  rw [step, leads_require]
  cases form with
  | value =>
      show t.terminal ∈ Expected.bindingHead ∧ _ ↔ _
      simp only [State.Rest, bindingAhead, leafAhead_cons, List.mem_singleton]
      by_cases h : t.terminal = .macroWord
      · rw [if_pos h, and_iff_right (by rw [h]; decide), and_iff_right h,
          or_iff_right fun hl => by simp [h] at hl]
        exact Iff.rfl
      · rw [if_neg h, or_iff_left fun hl => h hl.1, Expected.bindingHead, List.mem_cons,
          List.mem_singleton, or_iff_left h]
        exact Iff.rfl
  | template =>
      show t.terminal ∈ Expected.name ∧ _ ↔ t.terminal ∈ [Terminal.identifier] ∧ _
      by_cases h : t.terminal = .macroWord
      · have hm : t.terminal ∉ Expected.name := by rw [h]; decide
        exact ⟨fun hl => absurd hl.1 hm, fun hl => absurd hl.1 hm⟩
      · rw [if_neg h]
        exact Iff.rfl

/-- Names are read up to the token that ends them.  Behind one of them there is either that
    token or another name, and everything else that is demanded follows from this. -/
theorem leads_names {k : Terminal} (hk : k ≠ .identifier) {first second short : Expected}
    (hfirst : [k, .identifier] ⊆ first) (hsecond : [k, .identifier] ⊆ second)
    (done more : State) :
    Leads out ts (do
      require t first
      require t second
      (require t [k, .identifier]).mapError fun _ => short
      if t.terminal = k then return done
      return more) ↔
        (t.terminal = k ∧ done.Rest out ts) ∨ (t.terminal = .identifier ∧ more.Rest out ts) := by
  rw [leads_require, leads_require, leads_requireAs]
  by_cases h : t.terminal ∈ [k, .identifier]
  · rw [and_iff_right (hfirst h), and_iff_right (hsecond h), and_iff_right h]
    by_cases he : t.terminal = k
    · rw [if_pos he, and_iff_right he, or_iff_left fun hl => hk (he.symm.trans hl.1)]
      exact leads_pure done
    · have hi : t.terminal = .identifier := by
        rcases List.mem_cons.mp h with h | h
        · exact absurd h he
        · exact List.mem_singleton.mp h
      rw [if_neg he, or_iff_right fun hl => he hl.1, and_iff_right hi]
      exact leads_pure more
  · refine iff_of_false (fun hl => h hl.2.2.1) ?_
    rintro (⟨hl, -⟩ | ⟨hl, -⟩)
    · exact h (hl ▸ List.mem_cons_self ..)
    · exact h (hl ▸ List.mem_cons_of_mem _ (List.mem_singleton.mpr rfl))

theorem leads_binding (form : BindingForm) (named : Binder) (params : List Binder)
    (c : StmtContext) :
    Leads out ts (stepBinding t form named params c) ↔
      State.Rest out (.bindingParams form named params c) (t :: ts) := by
  have hsecond : [Terminal.equals, .identifier] ⊆
      (if params.isEmpty then Expected.bindingName else Expected.param) := by
    split <;> decide
  rw [State.Rest, bindingBehind, namesAhead_iff, stepBinding,
    leads_names (by decide) (by decide) hsecond]
  simp only [leafAhead_cons, List.mem_singleton, List.append_nil, reverse_append_cons, State.Rest,
    ClusterContext.Rest, bindingBehind]

theorem leads_function (pos : Position) (params : List Binder) (c : ExprContext) :
    Leads out ts (stepFunction t pos params c) ↔
      State.Rest out (.functionParams pos params c) (t :: ts) := by
  rw [State.Rest, functionBehind, namesAhead_iff, stepFunction,
    leads_names (by decide) (by decide) (by decide)]
  simp only [leafAhead_cons, List.mem_singleton, List.append_nil, reverse_append_cons, State.Rest,
    ClusterContext.Rest, functionBehind]

theorem leads_applied (callee : Binder) (arguments : List Node) (b : Bool)
    (c : PrimaryContext) :
    Leads out ts (step t (.applied callee arguments b c)) ↔
      State.Rest out (.applied callee arguments b c) (t :: ts) := by
  rw [begins_argument, step, leads_require]
  have hsub : Expected.afterArgument ⊆ (State.applied callee arguments b c).expected := by
    cases b with
    | true => exact List.Subset.trans (List.subset_cons_self ..) (List.subset_cons_self ..)
    | false => exact fun _ h => h
  -- a token that can begin an argument does: this is where chains become greedy
  by_cases h : t.terminal ∈ postfixSorts
  · have hm : t.terminal ∈ (State.applied callee arguments b c).expected := by
      have hp : postfixSorts ⊆ Expected.afterArgument := by decide
      exact hsub (hp h)
    obtain ⟨next, hn⟩ : ∃ next, beginArgument? t callee arguments c = some next := by
      simp only [postfixSorts, List.mem_cons, List.not_mem_nil, or_false] at h
      rcases h with h | h | h | h | h | h | h <;> simp [beginArgument?, h]
    rw [hn, and_iff_right hm, begins_some, or_iff_left fun hl => hl.1 h]
    exact Iff.rfl
  · have hn : beginArgument? t callee arguments c = none := by
      unfold beginArgument?
      split <;> first | rfl | (rename_i ht; exact absurd (ht ▸ h) (by decide))
    rw [hn, begins_none, false_or, leads_require, applicationOf_eq, leads_closePrimary,
      and_iff_right h]
    constructor
    · rintro ⟨-, -, hl⟩
      exact hl
    · intro hl
      have hm := List.mem_cons_of_mem Terminal.underline (mem_afterPrimary hl)
      exact ⟨hsub hm, hm, hl⟩

/-- **DERIVATIVE**: a token does to a state what it does to its remainder. -/
theorem leads_step (s : State) : Leads out ts (step t s) ↔ s.Rest out (t :: ts) := by
  cases s with
  | stmt c => exact leads_stmt c
  | expr c =>
      rw [step, leads_begun]
      exact begins_expr c
  | cluster c =>
      rw [step, leads_begun]
      exact begins_cluster c
  | primary c =>
      cases c with
      | operand before negated c =>
          cases negated with
          | false =>
              rw [step, leads_begun]
              exact begins_operand before c
          | true =>
              rw [step, leads_begun]
              · exact begins_primary (.operand before true c)
              · nofun
      | condition c =>
          rw [step, leads_begun]
          · exact begins_primary (.condition c)
          · nofun
      | loopCondition c =>
          rw [step, leads_begun]
          · exact begins_primary (.loopCondition c)
          · nofun
  | bindingHead form c => exact leads_bindingHead form c
  | bindingParams form named params c => exact leads_binding form named params c
  | functionHead pos c =>
      rw [step, leads_require]
      exact Iff.rfl
  | functionParams pos params c => exact leads_function pos params c
  | applied callee arguments b c => exact leads_applied callee arguments b c
  | literal n c =>
      rw [step, leads_require, leads_require, leads_closePrimary]
      constructor
      · rintro ⟨-, -, hl⟩
        exact hl
      · intro hl
        have hm := mem_afterPrimary hl
        exact ⟨List.mem_cons_of_mem _ hm, hm, hl⟩
  | group n c =>
      rw [step, leads_require, leads_closePrimary]
      exact and_iff_right_of_imp mem_afterPrimary
  | enclosed n c =>
      rw [step, leads_require, leads_require, leads_closeCluster]
      constructor
      · rintro ⟨-, -, hl⟩
        exact hl
      · intro hl
        have hm := mem_afterCluster hl
        have hs : Expected.afterExpr ⊆ Expected.afterArgument := by decide
        exact ⟨hs hm, hm, hl⟩

mutual

/-- Brackets do not end a program. -/
theorem not_rest_nil_stmt {n : Node} : ∀ c : StmtContext, ¬ c.Rest out n []
  | .line _, h => h
  | .item form _ _ _, h => (itemsBehind_nil form _).mp h

theorem not_rest_nil_cluster {n : Node} : ∀ c : ClusterContext, ¬ c.Rest out n []
  | .stmt c, h => not_rest_nil_stmt c h
  | .thenBlock _ c, h => h.elim (not_rest_nil_stmt c) id
  | .elseBlock _ _ c, h => not_rest_nil_stmt c h
  | .loopBody _ c, h => not_rest_nil_stmt c h
  | .codes _ _ _ c, h => not_rest_nil_stmt c h
  | .functionBody _ _ c, h => not_rest_nil_expr c h

theorem not_rest_nil_expr {n : Node} : ∀ c : ExprContext, ¬ c.Rest out n []
  | .cluster c, h => not_rest_nil_cluster c h
  | .group _, h => h
  | .argument _ _ _, h => h

theorem not_rest_nil_primary {n : Node} : ∀ c : PrimaryContext, ¬ c.Rest out n []
  | .condition _, h => (clusterAhead_nil _).mp h
  | .loopCondition c, h => (clusterAhead_nil fun m => c.Rest out (.loop n m)).mp h
  | .operand _ _ c, h => h.elim (not_rest_nil_expr c) id

end

/-- A state is complete without another token exactly at the end of a line. -/
theorem rest_nil (s : State) : s.Rest out [] ↔ finish s = .ok out := by
  have hno : ∀ {e : Expected}, ¬ (Except.error e : Except Expected (List Node)) = .ok out :=
    nofun
  cases s with
  | stmt c =>
      cases c with
      | line before =>
          rw [State.Rest, linesAhead_iff]
          simp only [leafAhead_nil, statementAhead_nil, or_false, true_and, List.append_nil, finish,
            Except.ok.injEq]
          exact eq_comm
      | item form fresh before outer =>
          rw [State.Rest, itemsAhead_nil]
          exact iff_of_false id hno
  | expr c =>
      rw [State.Rest, exprAhead_nil]
      exact iff_of_false id hno
  | cluster c =>
      rw [State.Rest, clusterAhead_nil]
      exact iff_of_false id hno
  | primary c =>
      cases c with
      | operand before negated c =>
          cases negated with
          | false =>
              rw [State.Rest, runAhead_nil]
              exact iff_of_false id hno
          | true => exact iff_of_false (primaryAhead_nil _).mp hno
      | condition c => exact iff_of_false (primaryAhead_nil _).mp hno
      | loopCondition c => exact iff_of_false (primaryAhead_nil _).mp hno
  | bindingHead form c =>
      cases form with
      | value => exact iff_of_false (fun h => h.elim id id) hno
      | template => exact iff_of_false id hno
  | bindingParams form named params c =>
      rw [State.Rest, bindingBehind, namesAhead_nil]
      exact iff_of_false id hno
  | functionHead pos c => exact iff_of_false id hno
  | functionParams pos params c =>
      rw [State.Rest, functionBehind, namesAhead_nil]
      exact iff_of_false id hno
  | applied callee arguments b c =>
      rw [State.Rest, chainAhead_nil]
      exact iff_of_false (not_rest_nil_primary c) hno
  | literal n c => exact iff_of_false (not_rest_nil_primary c) hno
  | group n c => exact iff_of_false (not_rest_nil_primary c) hno
  | enclosed n c => exact iff_of_false (not_rest_nil_cluster c) hno

/-- **RUN**: the tokens that complete a state are those that reading takes to the end. -/
theorem run_rest : ∀ (ts : List Token) (s : State),
    s.Rest out ts ↔ ∃ reached, run s ts = .ok reached ∧ finish reached = .ok out := by
  -- on the tokens, with the state free: the remainder moves along with the state
  intro ts
  induction ts with
  | nil =>
      intro s
      rw [rest_nil]
      constructor
      · intro h
        exact ⟨s, rfl, h⟩
      · rintro ⟨reached, hr, h⟩
        rw [Except.ok.inj hr]
        exact h
  | cons t rest ih =>
      intro s
      rw [← leads_step]
      cases hs : step t s with
      | error e =>
          constructor
          · intro h
            exact h.elim
          · rintro ⟨reached, hr, -⟩
            rw [run, hs] at hr
            exact nomatch hr
      | ok next =>
          rw [leads_ok, ih next, run, hs]

end BasicSyntax.Parse
