import BasicSyntax.Proofs.Parse.Derivative
import BasicSyntax.Proofs.Parse.Likeness

/-! # Completion — every state can still become a program

    For each context there is a row of terminals, its `ending`, that completes it: the brackets
    that are open are closed, from the inside out, and a condition is given the body `- 0`.  A
    minus is taken for the body because nothing else but `fun` may follow a condition that is a
    name (`cluster_behind_applied`).

    Hence no token that was accepted leads into a dead end (`run_ending`).  And whether a token
    is accepted depends on the sorts of the tokens before it alone (`run_sorts`). -/

namespace BasicSyntax

namespace Parse

open Grammar

/-! ## Endings -/

mutual

/-- What completes a program behind a statement. -/
def StmtContext.ending : StmtContext → List Terminal
  | .line _ => [.separator]
  | .item form _ _ outer => form.closer :: outer.ending

/-- What completes a program behind statements between brackets. -/
def EnclosedContext.ending : EnclosedContext → List Terminal
  | .cluster outer => outer.ending
  | .argument _ _ outer => outer.ending

/-- What completes a program behind a cluster. -/
def ClusterContext.ending : ClusterContext → List Terminal
  | .stmt outer => outer.ending
  | .thenBlock _ outer => outer.ending
  | .elseBlock _ _ outer => outer.ending
  | .loopBody _ outer => outer.ending
  | .codes _ _ _ outer => outer.ending
  | .functionBody _ _ outer => outer.ending

/-- What completes a program behind an expression. -/
def ExprContext.ending : ExprContext → List Terminal
  | .cluster outer => outer.ending
  | .group outer => .closeParen :: outer.ending
  | .argument _ _ outer => .closeParen :: outer.ending

/-- What completes a program behind an operand. -/
def PrimaryContext.ending : PrimaryContext → List Terminal
  | .condition outer => .minus :: .number :: outer.ending
  | .loopCondition outer => .minus :: .number :: outer.ending
  | .operand _ _ outer => outer.ending

end

/-- What completes a program from a state on. -/
def State.ending : State → List Terminal
  | .stmt (.line _) => []
  | .stmt (.item form _ _ outer) => form.closer :: outer.ending
  | .expr c => .number :: c.ending
  | .cluster c => .number :: c.ending
  | .primary c => .number :: c.ending
  | .bindingHead _ c => .identifier :: .equals :: .number :: c.ending
  | .bindingParams _ _ _ c => .equals :: .number :: c.ending
  | .functionHead _ c => .identifier :: .arrow :: .number :: c.ending
  | .functionParams _ _ c => .arrow :: .number :: c.ending
  | .applied _ _ _ c => c.ending
  | .literal _ c => c.ending
  | .group _ c => c.ending
  | .enclosed _ c => c.ending

/-- The terminals that occur in endings. -/
def endingSorts : List Terminal :=
  [.separator, .closeBrace, .closeSquare, .closeParen, .minus, .number, .identifier, .equals,
    .arrow]

/-- Terminals of endings, of which the first does not begin an argument. -/
structure Closing (ks : List Terminal) : Prop where
  head : ∃ k rest, ks = k :: rest ∧ k ∉ postfixSorts
  all : ∀ k ∈ ks, k ∈ endingSorts

theorem Closing.cons {k : Terminal} {ks : List Terminal} (hp : k ∉ postfixSorts)
    (hk : k ∈ endingSorts) (h : ∀ j ∈ ks, j ∈ endingSorts) : Closing (k :: ks) where
  head := ⟨k, ks, rfl, hp⟩
  all := List.forall_mem_cons.mpr ⟨hk, h⟩

theorem closing_body {ks : List Terminal} (h : Closing ks) :
    Closing (.minus :: .number :: ks) :=
  .cons (by decide) (by decide) (List.forall_mem_cons.mpr ⟨by decide, h.all⟩)

mutual

theorem closing_stmt : ∀ c : StmtContext, Closing c.ending
  | .line _ => .cons (by decide) (by decide) nofun
  | .item form _ _ outer => by
      have h := (closing_enclosed outer).all
      cases form with
      | block => exact .cons (by decide) (by decide) h
      | scope => exact .cons (by decide) (by decide) h

theorem closing_enclosed : ∀ c : EnclosedContext, Closing c.ending
  | .cluster outer => closing_cluster outer
  | .argument _ _ outer => closing_primary outer

theorem closing_cluster : ∀ c : ClusterContext, Closing c.ending
  | .stmt outer => closing_stmt outer
  | .thenBlock _ outer => closing_stmt outer
  | .elseBlock _ _ outer => closing_stmt outer
  | .loopBody _ outer => closing_stmt outer
  | .codes _ _ _ outer => closing_stmt outer
  | .functionBody _ _ outer => closing_expr outer

theorem closing_expr : ∀ c : ExprContext, Closing c.ending
  | .cluster outer => closing_cluster outer
  | .group outer => .cons (by decide) (by decide) (closing_primary outer).all
  | .argument _ _ outer => .cons (by decide) (by decide) (closing_primary outer).all

theorem closing_primary : ∀ c : PrimaryContext, Closing c.ending
  | .condition outer => closing_body (closing_stmt outer)
  | .loopCondition outer => closing_body (closing_stmt outer)
  | .operand _ _ outer => closing_expr outer

end

/-! ## Endings complete -/

/-- Tokens of the given sorts. -/
abbrev OfSorts (ks : List Terminal) (ts : List Token) : Prop := ts.map Token.terminal = ks

theorem OfSorts.cons {k : Terminal} {ks : List Terminal} {ts : List Token}
    (h : OfSorts (k :: ks) ts) : ∃ t us, ts = t :: us ∧ t.terminal = k ∧ OfSorts ks us :=
  List.map_eq_cons_iff.mp h

/-- No argument begins with what closes. -/
theorem Closing.maximal {ks : List Terminal} {ts : List Token} (h : Closing ks)
    (hts : OfSorts ks ts) : ChainEnds ts := by
  obtain ⟨k, rest, rfl, hk⟩ := h.head
  obtain ⟨t, us, rfl, rfl, -⟩ := hts.cons
  exact hk

section

variable {k : Behind Node} {t : Token} {ts : List Token}

theorem primary_number (ht : t.terminal = .number) (h : k (literalOf t) ts) :
    primaryAhead k (t :: ts) :=
  (primaryAhead_iff ..).mpr (Or.inr (Or.inl ⟨by rw [ht]; decide, h⟩))

theorem run_number {k : Behind (Node × List (Pair Node))} (ht : t.terminal = .number)
    (h : k (literalOf t, []) ts) : runAhead k (t :: ts) :=
  (runAhead_iff ..).mpr (Or.inl (primary_number ht (Or.inl h)))

theorem expr_number (ht : t.terminal = .number) (h : k (literalOf t) ts) :
    exprAhead k (t :: ts) :=
  (exprAhead_iff ..).mpr (Or.inl (run_number ht h))

theorem cluster_number (ht : t.terminal = .number) (h : k (literalOf t) ts) :
    clusterAhead k (t :: ts) :=
  (clusterAhead_iff ..).mpr (Or.inl (expr_number ht h))

/-- A negated number is ahead, which may follow any condition. -/
theorem cluster_body {m : Token} (hm : m.terminal = .minus) (ht : t.terminal = .number)
    (h : k (.negative (literalOf t)) ts) : clusterAhead k (m :: t :: ts) := by
  rw [clusterAhead_iff, exprAhead_iff, runAhead_iff]
  exact Or.inl (Or.inl (Or.inr ⟨List.mem_singleton.mpr hm, primary_number ht (Or.inl h)⟩))

end

mutual

theorem rest_stmt (n : Node) : ∀ (c : StmtContext) {ts : List Token}, OfSorts c.ending ts →
    ∃ out, c.Rest out n ts
  | .line before, ts, h => by
      obtain ⟨t, us, rfl, ht, hus⟩ := OfSorts.cons h
      obtain rfl := List.map_eq_nil_iff.mp hus
      exact ⟨_, List.mem_singleton.mpr ht, (linesAhead_iff ..).mpr (Or.inl ⟨rfl, rfl⟩)⟩
  | .item form fresh before outer, ts, h => by
      obtain ⟨t, us, rfl, ht, hus⟩ := OfSorts.cons h
      obtain ⟨out, hout⟩ := rest_enclosed (.enclosed form (before.reverse ++ [n])) outer hus
      exact ⟨out, Or.inl ⟨List.mem_singleton.mpr ht, hout⟩⟩

theorem rest_enclosed (n : Node) : ∀ (c : EnclosedContext) {ts : List Token},
    OfSorts c.ending ts → ∃ out, c.Rest out n ts
  | .cluster c, ts, h => rest_cluster n c h
  | .argument callee before c, ts, h => by
      obtain ⟨out, hout⟩ :=
        rest_primary (applicationNode callee (before.reverse ++ [n])) c h
      refine ⟨out, (chainAhead_iff (fun ns =>
        c.Rest out (applicationNode callee (before.reverse ++ n :: ns))) ts).mpr ?_⟩
      exact Or.inl ⟨(closing_primary c).maximal h, hout⟩

theorem rest_cluster (n : Node) : ∀ (c : ClusterContext) {ts : List Token},
    OfSorts c.ending ts → ∃ out, c.Rest out n ts
  | .stmt c, ts, h => rest_stmt n c h
  | .thenBlock condition c, ts, h => by
      obtain ⟨out, hout⟩ := rest_stmt (.conditional condition n none) c h
      exact ⟨out, Or.inl hout⟩
  | .elseBlock condition thenBlock c, ts, h =>
      rest_stmt (.conditional condition thenBlock (some n)) c h
  | .loopBody condition c, ts, h => rest_stmt (.loop condition n) c h
  | .codes form named params c, ts, h =>
      rest_stmt (.binding form named (paramList params.reverse) n) c h
  | .functionBody pos params c, ts, h => rest_expr (functionNode pos params.reverse n) c h

theorem rest_expr (n : Node) : ∀ (c : ExprContext) {ts : List Token},
    OfSorts c.ending ts → ∃ out, c.Rest out n ts
  | .cluster c, ts, h => rest_cluster n c h
  | .group c, ts, h => by
      obtain ⟨t, us, rfl, ht, hus⟩ := OfSorts.cons h
      obtain ⟨out, hout⟩ := rest_primary n c hus
      exact ⟨out, List.mem_singleton.mpr ht, hout⟩
  | .argument callee before c, ts, h => by
      obtain ⟨t, us, rfl, ht, hus⟩ := OfSorts.cons h
      obtain ⟨out, hout⟩ :=
        rest_primary (applicationNode callee (before.reverse ++ [n])) c hus
      exact ⟨out, List.mem_singleton.mpr ht,
        (chainAhead_iff ..).mpr (Or.inl ⟨(closing_primary c).maximal hus, hout⟩)⟩

theorem rest_primary (n : Node) : ∀ (c : PrimaryContext) {ts : List Token},
    OfSorts c.ending ts → ∃ out, c.Rest out n ts
  | .condition c, ts, h => by
      obtain ⟨m, us, rfl, hm, hus⟩ := OfSorts.cons h
      obtain ⟨t, vs, rfl, ht, hvs⟩ := OfSorts.cons hus
      obtain ⟨out, hout⟩ := rest_stmt (.conditional n (.negative (literalOf t)) none) c hvs
      exact ⟨out, cluster_body hm ht (Or.inl hout)⟩
  | .loopCondition c, ts, h => by
      obtain ⟨m, us, rfl, hm, hus⟩ := OfSorts.cons h
      obtain ⟨t, vs, rfl, ht, hvs⟩ := OfSorts.cons hus
      obtain ⟨out, hout⟩ := rest_stmt (.loop n (.negative (literalOf t))) c hvs
      refine ⟨out, ?_⟩
      rw [PrimaryContext.Rest]
      exact cluster_body hm ht hout
  | .operand before negated c, ts, h => by
      obtain ⟨out, hout⟩ :=
        rest_expr (runWith before (if negated then .negative n else n, [])) c h
      exact ⟨out, Or.inl hout⟩

end

/-- Behind the name of a binding a number completes it. -/
theorem rest_bindingParams (form : BindingForm) (named : Binder) (params : List Binder)
    (c : StmtContext) {ts : List Token} (h : OfSorts (.equals :: .number :: c.ending) ts) :
    ∃ out, State.Rest out (.bindingParams form named params c) ts := by
  obtain ⟨e, us, rfl, he, hus⟩ := OfSorts.cons h
  obtain ⟨t, vs, rfl, ht, hvs⟩ := OfSorts.cons hus
  obtain ⟨out, hout⟩ :=
    rest_stmt (.binding form named (paramList (params.reverse ++ [])) (literalOf t)) c hvs
  refine ⟨out, ?_⟩
  rw [State.Rest, bindingBehind, namesAhead_iff]
  exact Or.inl ⟨List.mem_singleton.mpr he, cluster_number ht hout⟩

/-- Behind a parameter of a function a number completes it. -/
theorem rest_functionParams (pos : Position) (params : List Binder) (c : ExprContext)
    {ts : List Token} (h : OfSorts (.arrow :: .number :: c.ending) ts) :
    ∃ out, State.Rest out (.functionParams pos params c) ts := by
  obtain ⟨a, us, rfl, ha, hus⟩ := OfSorts.cons h
  obtain ⟨t, vs, rfl, ht, hvs⟩ := OfSorts.cons hus
  obtain ⟨out, hout⟩ := rest_expr (functionNode pos (params.reverse ++ []) (literalOf t)) c hvs
  refine ⟨out, ?_⟩
  rw [State.Rest, functionBehind, namesAhead_iff]
  exact Or.inl ⟨List.mem_singleton.mpr ha, cluster_number ht hout⟩

/-- Tokens of the sorts of an ending complete the state. -/
theorem rest_ending (s : State) {ts : List Token} (h : OfSorts s.ending ts) :
    ∃ out, s.Rest out ts := by
  cases s with
  | stmt c =>
      -- a line may end at once; brackets are closed first
      cases c with
      | line before =>
          obtain rfl := List.map_eq_nil_iff.mp h
          refine ⟨before.reverse, ?_⟩
          rw [State.Rest, linesAhead_iff]
          exact Or.inl ⟨rfl, (List.append_nil _).symm⟩
      | item form fresh before outer =>
          obtain ⟨t, us, rfl, ht, hus⟩ := OfSorts.cons h
          obtain ⟨out, hout⟩ := rest_enclosed (.enclosed form (before.reverse ++ [])) outer hus
          refine ⟨out, ?_⟩
          rw [State.Rest, itemsAhead_iff, itemsBehind, leafAhead_cons]
          exact Or.inl (Or.inl ⟨List.mem_singleton.mpr ht, hout⟩)
  | expr c =>
      obtain ⟨t, us, rfl, ht, hus⟩ := OfSorts.cons h
      obtain ⟨out, hout⟩ := rest_expr (literalOf t) c hus
      exact ⟨out, expr_number ht hout⟩
  | cluster c =>
      obtain ⟨t, us, rfl, ht, hus⟩ := OfSorts.cons h
      obtain ⟨out, hout⟩ := rest_cluster (literalOf t) c hus
      exact ⟨out, cluster_number ht hout⟩
  | primary c =>
      obtain ⟨t, us, rfl, ht, hus⟩ := OfSorts.cons h
      obtain ⟨out, hout⟩ := rest_primary (literalOf t) c hus
      refine ⟨out, ?_⟩
      cases c with
      | condition c => exact primary_number ht hout
      | loopCondition c => exact primary_number ht hout
      | operand before negated c =>
          cases negated with
          | true => exact primary_number ht hout
          | false =>
              rw [State.Rest, runAhead_iff]
              exact Or.inl (primary_number ht hout)
  | bindingHead form c =>
      obtain ⟨b, us, rfl, hb, hus⟩ := OfSorts.cons h
      obtain ⟨out, hout⟩ := rest_bindingParams form (binderOf b) [] c hus
      have ha : bindingAhead (c.Rest out) form (b :: us) := ⟨List.mem_singleton.mpr hb, hout⟩
      refine ⟨out, ?_⟩
      cases form with
      | value => exact Or.inl ha
      | template => exact ha
  | bindingParams form named params c => exact rest_bindingParams form named params c h
  | functionHead pos c =>
      obtain ⟨b, us, rfl, hb, hus⟩ := OfSorts.cons h
      obtain ⟨out, hout⟩ := rest_functionParams pos [binderOf b] c hus
      exact ⟨out, List.mem_singleton.mpr hb, hout⟩
  | functionParams pos params c => exact rest_functionParams pos params c h
  | applied callee arguments behindName c =>
      obtain ⟨out, hout⟩ := rest_primary (applicationNode callee (arguments.reverse ++ [])) c h
      refine ⟨out, ?_⟩
      rw [State.Rest, chainAhead_iff]
      exact Or.inl ⟨(closing_primary c).maximal h, hout⟩
  | literal n c => exact rest_primary n c h
  | group n c => exact rest_primary n c h
  | enclosed n c => exact rest_cluster n c h

/-- Every state has an ending of terminals that occur in endings. -/
theorem ending_sorts (s : State) : ∀ k ∈ s.ending, k ∈ endingSorts := by
  have hnumber : ∀ {ks : List Terminal}, Closing ks → ∀ k ∈ Terminal.number :: ks,
      k ∈ endingSorts := fun h => List.forall_mem_cons.mpr ⟨by decide, h.all⟩
  cases s with
  | stmt c =>
      cases c with
      | line before => exact nofun
      | item form fresh before outer => exact (closing_stmt (.item form fresh before outer)).all
  | expr c => exact hnumber (closing_expr c)
  | cluster c => exact hnumber (closing_cluster c)
  | primary c => exact hnumber (closing_primary c)
  | bindingHead form c =>
      exact List.forall_mem_cons.mpr ⟨by decide, List.forall_mem_cons.mpr ⟨by decide,
        hnumber (closing_stmt c)⟩⟩
  | bindingParams form named params c =>
      exact List.forall_mem_cons.mpr ⟨by decide, hnumber (closing_stmt c)⟩
  | functionHead pos c =>
      exact List.forall_mem_cons.mpr ⟨by decide, List.forall_mem_cons.mpr ⟨by decide,
        hnumber (closing_expr c)⟩⟩
  | functionParams pos params c =>
      exact List.forall_mem_cons.mpr ⟨by decide, hnumber (closing_expr c)⟩
  | applied callee arguments behindName c => exact (closing_primary c).all
  | literal n c => exact (closing_primary c).all
  | group n c => exact (closing_primary c).all
  | enclosed n c => exact (closing_cluster c).all

/-! ## Runs -/

/-- A run over two lists is a run over the one and then over the other. -/
theorem run_append : ∀ (ts us : List Token) (s : State),
    run s (ts ++ us) = (run s ts).bind fun reached => run reached us := by
  intro ts
  induction ts with
  | nil => intro us s; rfl
  | cons t ts ih =>
      intro us s
      rw [List.cons_append, run, run]
      cases step t s with
      | error e => rfl
      | ok next => exact ih us next

/-- Where a program may end, and what it is then. -/
theorem finish_ok {s : State} {out : List Node} (h : finish s = .ok out) :
    s = .stmt (.line out.reverse) := by
  unfold finish at h
  split at h
  · rw [← Except.ok.inj h, List.reverse_reverse]
  · exact nomatch h

/-- **NO DEAD END**: from any state, tokens of the sorts of its ending complete a program, and
    so they do with an empty line behind them. -/
theorem run_ending (s : State) {ts : List Token} (h : OfSorts s.ending ts) {sep : Token}
    (hsep : sep.terminal = .separator) :
    ∃ reached out, run s (ts ++ [sep]) = .ok reached ∧ finish reached = .ok out := by
  obtain ⟨out, hout⟩ := rest_ending s h
  obtain ⟨reached, hr, hf⟩ := (run_rest ts s).mp hout
  -- reading ends only between lines, where a separator makes an empty one
  obtain rfl := finish_ok hf
  refine ⟨.stmt (.line (.null :: out.reverse)), (Node.null :: out.reverse).reverse, ?_, rfl⟩
  rw [run_append, hr]
  show run (.stmt (.line out.reverse)) [sep] = _
  rw [run, step, if_pos hsep]
  rfl

/-- Tokens are alike when they are of one sort, and nodes always are. -/
def sortLikeness : Likeness where
  token t t' := t.terminal = t'.terminal
  place _ _ := True
  binder _ _ := True
  operator _ _ := True
  node _ _ := True
  lines _ _ := True
  terminal_eq h := h
  token_place _ _ := trivial
  token_binder _ _ := trivial
  token_operator _ _ := trivial
  token_literal _ _ := trivial
  token_underline _ _ := trivial
  null := trivial
  name _ := trivial
  negative _ := trivial
  run _ _ := trivial
  application _ _ := trivial
  enclosed _ _ := trivial
  function _ _ _ := trivial
  conditional _ _ := trivial
  conditionalElse _ _ _ := trivial
  loop _ _ := trivial
  binding _ _ _ _ := trivial
  lines_cons _ _ := trivial

/-- **SORTS DECIDE**: how far tokens are read is told by their sorts. -/
theorem run_sorts {ts ts' : List Token} (h : ts.map Token.terminal = ts'.map Token.terminal) :
    RunAlike sortLikeness (run .start ts) (run .start ts') := by
  have hsorts : List.Forall₂ Eq (ts.map Token.terminal) (ts'.map Token.terminal) := by
    rw [h]
    exact List.forall₂_same.mpr fun _ _ => rfl
  have htokens := List.forall₂_map_right_iff.mp (List.forall₂_map_left_iff.mp hsorts)
  exact run_alike htokens (.stmt (.line trivial))

end Parse

end BasicSyntax
