import BasicSyntax.Parse.Step
import Mathlib.Data.List.Forall2

/-! # Likeness — reading does not look at what it has read

    The reader decides by the sorts of tokens alone; texts, positions and nodes only pass
    through.  So two readings of tokens that are alike stay alike, whatever being alike means
    for nodes, as long as building nodes respects it.

    A `Likeness` is such a meaning.  Its laws say which ways of building the reader relies on,
    and of which tokens it builds something at all: of a separator it never does.
    `step_alike` is the step of the simulation and `run_alike` the whole run: both readings go
    on, or both fail at tokens that are alike and with the same terminals expected. -/

namespace BasicSyntax

/-- What it means for tokens and nodes to be alike, respected by all that is built of them. -/
structure Likeness where
  token : Token → Token → Prop
  place : Position → Position → Prop
  binder : Binder → Binder → Prop
  operator : Operator → Operator → Prop
  node : Node → Node → Prop
  /-- Lines that have been read, the last first; there need not be as many. -/
  lines : List Node → List Node → Prop
  terminal_eq : ∀ {t t'}, token t t' → t.terminal = t'.terminal
  token_place : ∀ {t t'}, token t t' → t.terminal = .funWord → place t.pos t'.pos
  token_binder : ∀ {t t'}, token t t' → t.terminal = .identifier →
    binder (Parse.binderOf t) (Parse.binderOf t')
  token_operator : ∀ {t t'}, token t t' → t.terminal = .operator ∨ t.terminal = .minus →
    operator (Parse.operatorOf t) (Parse.operatorOf t')
  token_literal : ∀ {t t'}, token t t' → t.terminal = .number ∨ t.terminal = .string →
    node (Parse.literalOf t) (Parse.literalOf t')
  token_underline : ∀ {t t'}, token t t' → t.terminal = .underline →
    node (.underline (some t.pos)) (.underline (some t'.pos))
  null : node .null .null
  name : ∀ {b b'}, binder b b' → node (.binder b) (.binder b')
  negative : ∀ {n n'}, node n n' → node (.negative n) (.negative n')
  run : ∀ {before before' : List (Node × Operator)} {n n' : Node},
    List.Forall₂ (fun i i' => node i.1 i'.1 ∧ operator i.2 i'.2) before before' → node n n' →
    node (Parse.runOf before n) (Parse.runOf before' n')
  application : ∀ {b b' ns ns'}, binder b b' → List.Forall₂ node ns ns' →
    node (.application (.binder b) ns) (.application (.binder b') ns')
  enclosed : ∀ {ns ns'} (form : Enclosure), List.Forall₂ node ns ns' →
    node (.enclosed form ns) (.enclosed form ns')
  function : ∀ {p p' bs bs' n n'}, place p p' → List.Forall₂ binder bs bs' → node n n' →
    node (.function (bs.map fun b => (b, none)) n (some p))
      (.function (bs'.map fun b => (b, none)) n' (some p'))
  conditional : ∀ {c c' m m'}, node c c' → node m m' →
    node (.conditional c m none) (.conditional c' m' none)
  conditionalElse : ∀ {c c' m m' n n'}, node c c' → node m m' → node n n' →
    node (.conditional c m (some n)) (.conditional c' m' (some n'))
  loop : ∀ {c c' n n'}, node c c' → node n n' → node (.loop c n) (.loop c' n')
  binding : ∀ {b b' bs bs' n n'} (form : BindingForm), binder b b' →
    List.Forall₂ binder bs bs' → node n n' →
    node (.binding form b (Parse.paramsOf bs) n) (.binding form b' (Parse.paramsOf bs') n')
  lines_cons : ∀ {n n' ns ns'}, node n n' → lines ns ns' → lines (n :: ns) (n' :: ns')

namespace Parse

variable (L : Likeness)

/-! ## Contexts and states that are alike -/

/-- Operands that are alike, with operators that are. -/
def ItemAlike (i i' : Node × Operator) : Prop := L.node i.1 i'.1 ∧ L.operator i.2 i'.2

mutual

inductive StmtAlike : StmtContext → StmtContext → Prop
  | line {before before' : List Node} : L.lines before before' →
      StmtAlike (.line before) (.line before')
  | item {before before' : List Node} {outer outer' : EnclosedContext} (form : Enclosure)
      (fresh : Bool) : List.Forall₂ L.node before before' → EnclosedAlike outer outer' →
      StmtAlike (.item form fresh before outer) (.item form fresh before' outer')

inductive EnclosedAlike : EnclosedContext → EnclosedContext → Prop
  | cluster {outer outer' : ClusterContext} : ClusterAlike outer outer' →
      EnclosedAlike (.cluster outer) (.cluster outer')
  | argument {callee callee' : Binder} {before before' : List Node}
      {outer outer' : PrimaryContext} : L.binder callee callee' →
      List.Forall₂ L.node before before' → PrimaryAlike outer outer' →
      EnclosedAlike (.argument callee before outer) (.argument callee' before' outer')

inductive ClusterAlike : ClusterContext → ClusterContext → Prop
  | stmt {outer outer' : StmtContext} : StmtAlike outer outer' →
      ClusterAlike (.stmt outer) (.stmt outer')
  | thenBlock {c c' : Node} {outer outer' : StmtContext} : L.node c c' →
      StmtAlike outer outer' → ClusterAlike (.thenBlock c outer) (.thenBlock c' outer')
  | elseBlock {c c' m m' : Node} {outer outer' : StmtContext} : L.node c c' → L.node m m' →
      StmtAlike outer outer' → ClusterAlike (.elseBlock c m outer) (.elseBlock c' m' outer')
  | loopBody {c c' : Node} {outer outer' : StmtContext} : L.node c c' →
      StmtAlike outer outer' → ClusterAlike (.loopBody c outer) (.loopBody c' outer')
  | codes {b b' : Binder} {bs bs' : List Binder} {outer outer' : StmtContext}
      (form : BindingForm) : L.binder b b' → List.Forall₂ L.binder bs bs' →
      StmtAlike outer outer' → ClusterAlike (.codes form b bs outer) (.codes form b' bs' outer')
  | functionBody {p p' : Position} {bs bs' : List Binder} {outer outer' : ExprContext} :
      L.place p p' → List.Forall₂ L.binder bs bs' → ExprAlike outer outer' →
      ClusterAlike (.functionBody p bs outer) (.functionBody p' bs' outer')

inductive ExprAlike : ExprContext → ExprContext → Prop
  | cluster {outer outer' : ClusterContext} : ClusterAlike outer outer' →
      ExprAlike (.cluster outer) (.cluster outer')
  | group {outer outer' : PrimaryContext} : PrimaryAlike outer outer' →
      ExprAlike (.group outer) (.group outer')
  | argument {callee callee' : Binder} {before before' : List Node}
      {outer outer' : PrimaryContext} : L.binder callee callee' →
      List.Forall₂ L.node before before' → PrimaryAlike outer outer' →
      ExprAlike (.argument callee before outer) (.argument callee' before' outer')

inductive PrimaryAlike : PrimaryContext → PrimaryContext → Prop
  | condition {outer outer' : StmtContext} : StmtAlike outer outer' →
      PrimaryAlike (.condition outer) (.condition outer')
  | loopCondition {outer outer' : StmtContext} : StmtAlike outer outer' →
      PrimaryAlike (.loopCondition outer) (.loopCondition outer')
  | operand {before before' : List (Node × Operator)} {outer outer' : ExprContext}
      (negated : Bool) : List.Forall₂ (ItemAlike L) before before' → ExprAlike outer outer' →
      PrimaryAlike (.operand before negated outer) (.operand before' negated outer')

end

/-- States that are alike. -/
inductive StateAlike : State → State → Prop
  | stmt {c c' : StmtContext} : StmtAlike L c c' → StateAlike (.stmt c) (.stmt c')
  | expr {c c' : ExprContext} : ExprAlike L c c' → StateAlike (.expr c) (.expr c')
  | cluster {c c' : ClusterContext} : ClusterAlike L c c' →
      StateAlike (.cluster c) (.cluster c')
  | primary {c c' : PrimaryContext} : PrimaryAlike L c c' →
      StateAlike (.primary c) (.primary c')
  | bindingHead {c c' : StmtContext} (form : BindingForm) : StmtAlike L c c' →
      StateAlike (.bindingHead form c) (.bindingHead form c')
  | bindingParams {b b' : Binder} {bs bs' : List Binder} {c c' : StmtContext}
      (form : BindingForm) : L.binder b b' → List.Forall₂ L.binder bs bs' → StmtAlike L c c' →
      StateAlike (.bindingParams form b bs c) (.bindingParams form b' bs' c')
  | functionHead {p p' : Position} {c c' : ExprContext} : L.place p p' → ExprAlike L c c' →
      StateAlike (.functionHead p c) (.functionHead p' c')
  | functionParams {p p' : Position} {bs bs' : List Binder} {c c' : ExprContext} :
      L.place p p' → List.Forall₂ L.binder bs bs' → ExprAlike L c c' →
      StateAlike (.functionParams p bs c) (.functionParams p' bs' c')
  | applied {b b' : Binder} {ns ns' : List Node} {c c' : PrimaryContext} (behindName : Bool) :
      L.binder b b' → List.Forall₂ L.node ns ns' → PrimaryAlike L c c' →
      StateAlike (.applied b ns behindName c) (.applied b' ns' behindName c')
  | literal {n n' : Node} {c c' : PrimaryContext} : L.node n n' → PrimaryAlike L c c' →
      StateAlike (.literal n c) (.literal n' c')
  | group {n n' : Node} {c c' : PrimaryContext} : L.node n n' → PrimaryAlike L c c' →
      StateAlike (.group n c) (.group n' c')
  | enclosed {n n' : Node} {c c' : ClusterContext} : L.node n n' → ClusterAlike L c c' →
      StateAlike (.enclosed n c) (.enclosed n' c')

/-- Outcomes of a step that are alike: states that are, or the same expectation. -/
def Alike : Except Expected State → Except Expected State → Prop
  | .ok s, .ok s' => StateAlike L s s'
  | .error e, .error e' => e = e'
  | _, _ => False

/-- Parts that are begun alike, or neither is. -/
def BegunAlike : Option State → Option State → Prop
  | some s, some s' => StateAlike L s s'
  | none, none => True
  | _, _ => False

variable {L} {t t' : Token}

theorem alike_require {f f' : Unit → Except Expected State} (ht : L.token t t') (e : Expected)
    (h : t.terminal ∈ e → Alike L (f ()) (f' ())) :
    Alike L (require t e >>= f) (require t' e >>= f') := by
  unfold require
  rw [← L.terminal_eq ht]
  by_cases hm : t.terminal ∈ e
  · rw [if_pos hm]
    exact h hm
  · rw [if_neg hm]
    exact rfl

theorem alike_requireAs {f f' : Unit → Except Expected State} (ht : L.token t t')
    (e e' : Expected) (h : t.terminal ∈ e → Alike L (f ()) (f' ())) :
    Alike L ((require t e).mapError (fun _ => e') >>= f)
      ((require t' e).mapError (fun _ => e') >>= f') := by
  unfold require
  rw [← L.terminal_eq ht]
  by_cases hm : t.terminal ∈ e
  · rw [if_pos hm]
    exact h hm
  · rw [if_neg hm]
    exact rfl

theorem alike_begun {o o' : Option State} (e : Expected) (h : BegunAlike L o o') :
    Alike L (begun e o) (begun e o') := by
  cases o with
  | none =>
      cases o' with
      | none => exact rfl
      | some s' => exact h.elim
  | some s =>
      cases o' with
      | none => exact h.elim
      | some s' => exact h

/-! ## Beginning a part -/

theorem begun_primary {c c' : PrimaryContext} (ht : L.token t t') (hc : PrimaryAlike L c c') :
    BegunAlike L (beginPrimary? t c) (beginPrimary? t' c') := by
  unfold beginPrimary?
  rw [← L.terminal_eq ht]
  split
  · next hk => exact .applied true (L.token_binder ht hk) .nil hc
  · next hk => exact .literal (L.token_literal ht (.inl hk)) hc
  · next hk => exact .literal (L.token_literal ht (.inr hk)) hc
  · exact .expr (.group hc)
  · trivial

theorem begun_operand {before before' : List (Node × Operator)} {c c' : ExprContext}
    (ht : L.token t t') (hb : List.Forall₂ (ItemAlike L) before before')
    (hc : ExprAlike L c c') :
    BegunAlike L (beginOperand? t before c) (beginOperand? t' before' c') := by
  unfold beginOperand?
  rw [← L.terminal_eq ht]
  split
  · exact .primary (.operand true hb hc)
  · exact begun_primary ht (.operand false hb hc)

theorem begun_expr {c c' : ExprContext} (ht : L.token t t') (hc : ExprAlike L c c') :
    BegunAlike L (beginExpr? t c) (beginExpr? t' c') := by
  unfold beginExpr?
  rw [← L.terminal_eq ht]
  split
  · next hk => exact .functionHead (L.token_place ht hk) hc
  · exact begun_operand ht .nil hc

theorem begun_cluster {c c' : ClusterContext} (ht : L.token t t') (hc : ClusterAlike L c c') :
    BegunAlike L (beginCluster? t c) (beginCluster? t' c') := by
  unfold beginCluster?
  rw [← L.terminal_eq ht]
  split
  · exact .stmt (.item .block true .nil (.cluster hc))
  · exact .stmt (.item .scope true .nil (.cluster hc))
  · exact begun_expr ht (.cluster hc)

theorem begun_stmt {c c' : StmtContext} (ht : L.token t t') (hc : StmtAlike L c c') :
    BegunAlike L (beginStmt? t c) (beginStmt? t' c') := by
  unfold beginStmt?
  rw [← L.terminal_eq ht]
  split
  · exact .primary (.condition hc)
  · exact .primary (.loopCondition hc)
  · exact .bindingHead .value hc
  · exact begun_cluster ht (.stmt hc)

theorem begun_argument {b b' : Binder} {ns ns' : List Node} {c c' : PrimaryContext}
    (ht : L.token t t') (hb : L.binder b b') (hns : List.Forall₂ L.node ns ns')
    (hc : PrimaryAlike L c c') :
    BegunAlike L (beginArgument? t b ns c) (beginArgument? t' b' ns' c') := by
  unfold beginArgument?
  rw [← L.terminal_eq ht]
  split
  · next hk => exact .applied true hb (.cons (L.name (L.token_binder ht hk)) hns) hc
  · next hk => exact .applied false hb (.cons (L.token_literal ht (.inl hk)) hns) hc
  · next hk => exact .applied false hb (.cons (L.token_literal ht (.inr hk)) hns) hc
  · next hk => exact .applied false hb (.cons (L.token_underline ht hk) hns) hc
  · exact .expr (.argument hb hns hc)
  · exact .stmt (.item .block true .nil (.argument hb hns hc))
  · exact .stmt (.item .scope true .nil (.argument hb hns hc))
  · trivial

/-! ## Nodes that are put together -/

theorem alike_application {b b' : Binder} {ns ns' : List Node} (hb : L.binder b b')
    (hns : List.Forall₂ L.node ns ns') :
    L.node (applicationOf b ns) (applicationOf b' ns') := by
  cases hns with
  | nil => exact L.name hb
  | cons hn hns =>
      exact L.application hb (List.forall₂_reverse_iff.mpr (.cons hn hns))

/-! ## Completing a part -/

theorem alike_closeItems {ns ns' : List Node} {c c' : EnclosedContext} (ht : L.token t t')
    (form : Enclosure) (hns : List.Forall₂ L.node ns ns') (hc : EnclosedAlike L c c') :
    Alike L (closeItems t form ns c) (closeItems t' form ns' c') := by
  unfold closeItems
  rw [← L.terminal_eq ht]
  have hn : L.node (.enclosed form ns.reverse) (.enclosed form ns'.reverse) :=
    L.enclosed form (List.forall₂_reverse_iff.mpr hns)
  by_cases hm : t.terminal = form.closer
  · rw [if_pos hm, if_pos hm]
    cases hc with
    | cluster hc => exact .enclosed hn hc
    | argument hb hbefore hc => exact .applied false hb (.cons hn hbefore) hc
  · rw [if_neg hm, if_neg hm]
    exact rfl

theorem alike_closeStmt {n n' : Node} {c c' : StmtContext} (ht : L.token t t')
    (hn : L.node n n') (hc : StmtAlike L c c') :
    Alike L (closeStmt t n c) (closeStmt t' n' c') := by
  unfold closeStmt
  refine alike_require ht _ fun _ => ?_
  cases hc with
  | line hb =>
      refine alike_require ht _ fun _ => ?_
      exact .stmt (.line (L.lines_cons hn hb))
  | item form fresh hb ho =>
      dsimp only
      rw [← L.terminal_eq ht]
      by_cases hm : t.terminal = .separator
      · rw [if_pos hm, if_pos hm]
        exact .stmt (.item form false (.cons hn hb) ho)
      · rw [if_neg hm, if_neg hm]
        exact alike_closeItems ht form (.cons hn hb) ho

mutual

theorem alike_closeCluster {n n' : Node} (ht : L.token t t') (hn : L.node n n') :
    ∀ {c c' : ClusterContext}, ClusterAlike L c c' →
      Alike L (closeCluster t n c) (closeCluster t' n' c')
  | _, _, .stmt hc => by
      rw [closeCluster, closeCluster]
      exact alike_closeStmt ht hn hc
  | _, _, .thenBlock hcond hc => by
      rw [closeCluster, closeCluster]
      refine alike_require ht _ fun _ => ?_
      rw [← L.terminal_eq ht]
      by_cases hm : t.terminal = .elseWord
      · rw [if_pos hm, if_pos hm]
        exact .cluster (.elseBlock hcond hn hc)
      · rw [if_neg hm, if_neg hm]
        exact alike_closeStmt ht (L.conditional hcond hn) hc
  | _, _, .elseBlock hcond hthen hc => by
      rw [closeCluster, closeCluster]
      exact alike_closeStmt ht (L.conditionalElse hcond hthen hn) hc
  | _, _, .loopBody hcond hc => by
      rw [closeCluster, closeCluster]
      exact alike_closeStmt ht (L.loop hcond hn) hc
  | _, _, .codes form hb hbs hc => by
      rw [closeCluster, closeCluster]
      exact alike_closeStmt ht (L.binding form hb hbs hn) hc
  | _, _, .functionBody hp hbs hc => by
      rw [closeCluster, closeCluster]
      refine alike_require ht _ fun _ => ?_
      exact alike_closeExpr ht (L.function hp (List.forall₂_reverse_iff.mpr hbs) hn) hc

theorem alike_closeExpr {n n' : Node} (ht : L.token t t') (hn : L.node n n') :
    ∀ {c c' : ExprContext}, ExprAlike L c c' →
      Alike L (closeExpr t n c) (closeExpr t' n' c')
  | _, _, .cluster hc => by
      rw [closeExpr, closeExpr]
      exact alike_closeCluster ht hn hc
  | _, _, .group hc => by
      rw [closeExpr, closeExpr]
      refine alike_require ht _ fun _ => ?_
      exact .group hn hc
  | _, _, .argument hb hbefore hc => by
      rw [closeExpr, closeExpr]
      refine alike_require ht _ fun _ => ?_
      exact .applied false hb (.cons hn hbefore) hc

end

theorem alike_closePrimary {n n' : Node} {c c' : PrimaryContext} (ht : L.token t t')
    (hn : L.node n n') (hc : PrimaryAlike L c c') :
    Alike L (closePrimary t n c) (closePrimary t' n' c') := by
  cases hc with
  | condition hc => exact alike_begun _ (begun_cluster ht (.thenBlock hn hc))
  | loopCondition hc => exact alike_begun _ (begun_cluster ht (.loopBody hn hc))
  | operand negated hb hc =>
      -- the sign is the same on both sides, for the contexts are alike
      have hlatest : L.node (if negated then .negative n else n)
          (if negated then .negative n' else n') := by
        cases negated with
        | true => exact L.negative hn
        | false => exact hn
      rw [closePrimary, closePrimary]
      refine alike_require ht _ fun _ => ?_
      dsimp only
      rw [← L.terminal_eq ht]
      by_cases hm : t.terminal = .operator ∨ t.terminal = .minus
      · rw [if_pos hm, if_pos hm]
        exact .primary (.operand false (.cons ⟨hlatest, L.token_operator ht hm⟩ hb) hc)
      · rw [if_neg hm, if_neg hm]
        exact alike_closeExpr ht (L.run hb hlatest) hc

/-! ## One token, and all of them -/

/-- States that are alike know the same terminals. -/
theorem expected_alike {s s' : State} (h : StateAlike L s s') : s.expected = s'.expected := by
  cases h with
  | stmt hc =>
      cases hc with
      | line hb => rfl
      | item form fresh hb ho => cases fresh <;> rfl
  | expr hc => rfl
  | cluster hc => rfl
  | primary hc =>
      cases hc with
      | condition hc => rfl
      | loopCondition hc => rfl
      | operand negated hb hc => cases negated <;> rfl
  | bindingHead form hc => cases form <;> rfl
  | bindingParams form hb hbs hc => rfl
  | functionHead hp hc => rfl
  | functionParams hp hbs hc => rfl
  | applied behindName hb hns hc => cases behindName <;> rfl
  | literal hn hc => rfl
  | group hn hc => rfl
  | enclosed hn hc => rfl

theorem alike_stmt {c c' : StmtContext} (ht : L.token t t') (hc : StmtAlike L c c') :
    Alike L (step t (.stmt c)) (step t' (.stmt c')) := by
  have he := expected_alike (StateAlike.stmt hc)
  have hb := begun_stmt ht hc
  cases hc with
  | line hbefore =>
      rw [step, step, ← L.terminal_eq ht, ← he]
      by_cases hm : t.terminal = .separator
      · rw [if_pos hm, if_pos hm]
        exact .stmt (.line (L.lines_cons L.null hbefore))
      · rw [if_neg hm, if_neg hm]
        exact alike_begun _ hb
  | item form fresh hbefore ho =>
      rw [step, step, ← he]
      refine alike_require ht _ fun _ => ?_
      rw [← L.terminal_eq ht]
      by_cases hm : t.terminal = .separator
      · rw [if_pos hm, if_pos hm]
        exact .stmt (.item form false hbefore ho)
      · rw [if_neg hm, if_neg hm]
        by_cases hm' : t.terminal = .closeBrace ∨ t.terminal = .closeSquare
        · rw [if_pos hm', if_pos hm']
          exact alike_closeItems ht form hbefore ho
        · rw [if_neg hm', if_neg hm']
          exact alike_begun _ hb

/-- What is a name or one other token, and is not the other. -/
theorem other_name {k other : Terminal} (h : k ∈ [other, .identifier]) (hne : ¬ k = other) :
    k = .identifier :=
  List.mem_singleton.mp ((List.mem_cons.mp h).resolve_left hne)

theorem alike_binding {b b' : Binder} {bs bs' : List Binder} {c c' : StmtContext}
    (ht : L.token t t') (form : BindingForm) (hb : L.binder b b')
    (hbs : List.Forall₂ L.binder bs bs') (hc : StmtAlike L c c') :
    Alike L (stepBinding t form b bs c) (stepBinding t' form b' bs' c') := by
  have hempty : bs.isEmpty = bs'.isEmpty := by cases hbs <;> rfl
  unfold stepBinding
  rw [← hempty]
  refine alike_require ht _ fun _ => ?_
  refine alike_require ht _ fun _ => ?_
  refine alike_requireAs ht _ _ fun hmem => ?_
  rw [← L.terminal_eq ht]
  by_cases hm : t.terminal = .equals
  · rw [if_pos hm, if_pos hm]
    exact .cluster (.codes form hb hbs hc)
  · rw [if_neg hm, if_neg hm]
    exact .bindingParams form hb (.cons (L.token_binder ht (other_name hmem hm)) hbs) hc

theorem alike_function {p p' : Position} {bs bs' : List Binder} {c c' : ExprContext}
    (ht : L.token t t') (hp : L.place p p') (hbs : List.Forall₂ L.binder bs bs')
    (hc : ExprAlike L c c') :
    Alike L (stepFunction t p bs c) (stepFunction t' p' bs' c') := by
  unfold stepFunction
  refine alike_require ht _ fun _ => ?_
  refine alike_require ht _ fun _ => ?_
  refine alike_requireAs ht _ _ fun hmem => ?_
  rw [← L.terminal_eq ht]
  by_cases hm : t.terminal = .arrow
  · rw [if_pos hm, if_pos hm]
    exact .cluster (.functionBody hp hbs hc)
  · rw [if_neg hm, if_neg hm]
    exact .functionParams hp (.cons (L.token_binder ht (other_name hmem hm)) hbs) hc

theorem alike_applied {b b' : Binder} {ns ns' : List Node} {c c' : PrimaryContext}
    (ht : L.token t t') (behindName : Bool) (hb : L.binder b b')
    (hns : List.Forall₂ L.node ns ns') (hc : PrimaryAlike L c c') :
    Alike L (step t (.applied b ns behindName c)) (step t' (.applied b' ns' behindName c')) := by
  have hbegun := begun_argument ht hb hns hc
  rw [step, step, ← expected_alike (.applied behindName hb hns hc)]
  refine alike_require ht _ fun _ => ?_
  -- whether an argument is begun is told by the sort of the token, so by both or by neither
  cases ha : beginArgument? t b ns c with
  | none =>
      cases ha' : beginArgument? t' b' ns' c' with
      | none =>
          refine alike_require ht _ fun _ => ?_
          exact alike_closePrimary ht (alike_application hb hns) hc
      | some next' =>
          rw [ha, ha'] at hbegun
          exact hbegun.elim
  | some next =>
      cases ha' : beginArgument? t' b' ns' c' with
      | none =>
          rw [ha, ha'] at hbegun
          exact hbegun.elim
      | some next' =>
          rw [ha, ha'] at hbegun
          exact hbegun

/-- **ONE STEP**: tokens that are alike do the same to states that are. -/
theorem step_alike {s s' : State} (ht : L.token t t') (hs : StateAlike L s s') :
    Alike L (step t s) (step t' s') := by
  -- every step first asks what is expected, which is the same in both states
  have he := expected_alike hs
  cases hs with
  | stmt hc => exact alike_stmt ht hc
  | expr hc => exact alike_begun _ (begun_expr ht hc)
  | cluster hc => exact alike_begun _ (begun_cluster ht hc)
  | primary hc =>
      cases hc with
      | condition hc => exact alike_begun _ (begun_primary ht (.condition hc))
      | loopCondition hc => exact alike_begun _ (begun_primary ht (.loopCondition hc))
      | operand negated hb hc =>
          cases negated with
          | true => exact alike_begun _ (begun_primary ht (.operand true hb hc))
          | false => exact alike_begun _ (begun_operand ht hb hc)
  | bindingHead form hc =>
      rw [step, step, ← he]
      refine alike_require ht _ fun hmem => ?_
      rw [← L.terminal_eq ht]
      by_cases hm : t.terminal = .macroWord
      · rw [if_pos hm, if_pos hm]
        exact .bindingHead .template hc
      · rw [if_neg hm, if_neg hm]
        have hk : t.terminal = .identifier := by
          cases form with
          | value =>
              exact (List.mem_cons.mp hmem).resolve_right fun h => hm (List.mem_singleton.mp h)
          | template => exact List.mem_singleton.mp hmem
        exact .bindingParams form (L.token_binder ht hk) .nil hc
  | bindingParams form hb hbs hc => exact alike_binding ht form hb hbs hc
  | functionHead hp hc =>
      rw [step, step, ← he]
      refine alike_require ht _ fun hmem => ?_
      exact .functionParams hp (.cons (L.token_binder ht (List.mem_singleton.mp hmem)) .nil) hc
  | functionParams hp hbs hc => exact alike_function ht hp hbs hc
  | applied behindName hb hns hc => exact alike_applied ht behindName hb hns hc
  | literal hn hc =>
      rw [step, step, ← he]
      refine alike_require ht _ fun _ => alike_require ht _ fun _ => ?_
      exact alike_closePrimary ht hn hc
  | group hn hc =>
      rw [step, step, ← he]
      refine alike_require ht _ fun _ => ?_
      exact alike_closePrimary ht hn hc
  | enclosed hn hc =>
      rw [step, step, ← he]
      refine alike_require ht _ fun _ => alike_require ht _ fun _ => ?_
      exact alike_closeCluster ht hn hc

/-- Outcomes of a run that are alike: states that are, or refusals of tokens that are, with the
    same expectation. -/
def RunAlike (L : Likeness) : Except Refusal State → Except Refusal State → Prop
  | .ok s, .ok s' => StateAlike L s s'
  | .error r, .error r' => L.token r.token r'.token ∧ r.expected = r'.expected
  | _, _ => False

theorem RunAlike.ok {s : State} {r : Except Refusal State} (h : RunAlike L (.ok s) r) :
    ∃ s', r = .ok s' ∧ StateAlike L s s' := by
  cases r with
  | error refusal => exact h.elim
  | ok s' => exact ⟨s', rfl, h⟩

theorem RunAlike.error {refusal : Refusal} {r : Except Refusal State}
    (h : RunAlike L (.error refusal) r) : ∃ refusal', r = .error refusal' ∧
      L.token refusal.token refusal'.token ∧ refusal.expected = refusal'.expected := by
  cases r with
  | error refusal' => exact ⟨refusal', rfl, h⟩
  | ok s' => exact h.elim

/-- **THE RUN**: lists of tokens that are alike are read alike. -/
theorem run_alike : ∀ {ts ts' : List Token}, List.Forall₂ L.token ts ts' →
    ∀ {s s' : State}, StateAlike L s s' → RunAlike L (run s ts) (run s' ts') := by
  intro ts ts' hts
  -- on the two lists together; the states are free, for the step changes them
  induction hts with
  | nil =>
      intro s s' hs
      exact hs
  | @cons t t' rest rest' ht _ ih =>
      intro s s' hs
      have h := step_alike ht hs
      rw [run, run]
      cases hstep : step t s with
      | error e =>
          cases hstep' : step t' s' with
          | error e' =>
              rw [hstep, hstep'] at h
              exact ⟨ht, h⟩
          | ok next' =>
              rw [hstep, hstep'] at h
              exact h.elim
      | ok next =>
          cases hstep' : step t' s' with
          | error e' =>
              rw [hstep, hstep'] at h
              exact h.elim
          | ok next' =>
              rw [hstep, hstep'] at h
              exact ih h

end Parse

end BasicSyntax
