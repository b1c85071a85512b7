import BasicSyntax.Proofs.Parse.Completion

/-! # Outcomes — everything that reading a token can come to

    Reading a token closes parts from the inside out, and each stage on the way asks whether it
    knows the token.  This module says once what that comes to (`step_outcome`): a state that is
    `After` a token of this sort, or a refusal.

    A refusal lists what the stage knows at which reading has given up (`Refuses`).  The state as
    it was before the token knows all of that, the token itself is not among it, and what would
    complete the state is.  Where nothing could be closed, the stage is the state itself
    (`refused_opening`). -/

namespace BasicSyntax.Parse

/-! ## States behind a token -/

/-- A state that may be behind a token of a sort. -/
inductive After : Terminal → State → Prop
  | line (before : List Node) : After .separator (.stmt (.line before))
  | laterItem (form : Enclosure) (before : List Node) (c : EnclosedContext) :
      After .separator (.stmt (.item form false before c))
  | block (c : EnclosedContext) : After .openBrace (.stmt (.item .block true [] c))
  | scope (c : EnclosedContext) : After .openSquare (.stmt (.item .scope true [] c))
  | expr (c : ExprContext) : After .openParen (.expr c)
  | cluster {k : Terminal} (c : ClusterContext) : k ∈ [.equals, .arrow, .elseWord] →
      After k (.cluster c)
  | sign (before : List (Node × Operator)) (c : ExprContext) :
      After .minus (.primary (.operand before true c))
  | operand {k : Terminal} (before : List (Node × Operator)) (c : ExprContext) :
      k ∈ [.operator, .minus] → After k (.primary (.operand before false c))
  | condition (c : StmtContext) : After .ifWord (.primary (.condition c))
  | loopCondition (c : StmtContext) : After .whileWord (.primary (.loopCondition c))
  | bindingHead (c : StmtContext) : After .letWord (.bindingHead .value c)
  | templateHead (c : StmtContext) : After .macroWord (.bindingHead .template c)
  | functionHead (pos : Position) (c : ExprContext) : After .funWord (.functionHead pos c)
  | bindingName (form : BindingForm) (named : Binder) (params : List Binder) (c : StmtContext) :
      After .identifier (.bindingParams form named params c)
  | functionParam (pos : Position) (params : List Binder) (c : ExprContext) :
      After .identifier (.functionParams pos params c)
  | name (callee : Binder) (arguments : List Node) (c : PrimaryContext) :
      After .identifier (.applied callee arguments true c)
  | argument {k : Terminal} (callee : Binder) (arguments : List Node) (c : PrimaryContext) :
      k ∈ [.number, .string, .underline, .closeBrace, .closeSquare, .closeParen] →
      After k (.applied callee arguments false c)
  | literal {k : Terminal} (n : Node) (c : PrimaryContext) : k ∈ [.number, .string] →
      After k (.literal n c)
  | group (n : Node) (c : PrimaryContext) : After .closeParen (.group n c)
  | enclosed {k : Terminal} (n : Node) (c : ClusterContext) : k ∈ [.closeBrace, .closeSquare] →
      After k (.enclosed n c)

/-- Only a separator leads between the lines of a program. -/
theorem After.between {k : Terminal} {before : List Node}
    (h : After k (.stmt (.line before))) : k = .separator := by
  cases h with
  | line => rfl

/-- Behind a separator a line of the program begins, or another line between brackets. -/
theorem After.separated {s : State} (h : After .separator s) :
    (∃ before, s = .stmt (.line before)) ∨
      ∃ form before c, s = .stmt (.item form false before c) := by
  cases h with
  | line before => exact .inl ⟨before, rfl⟩
  | laterItem form before c => exact .inr ⟨form, before, c, rfl⟩
  | cluster c hk => exact absurd hk (by decide)
  | operand before c hk => exact absurd hk (by decide)
  | argument callee arguments c hk => exact absurd hk (by decide)
  | literal n c hk => exact absurd hk (by decide)
  | enclosed n c hk => exact absurd hk (by decide)

/-! ## Outcomes -/

/-- What a refusal lists: some of what is known, not the token, and what completes first. -/
structure Refuses (t : Token) (known : Expected) (ending : List Terminal) (e : Expected) :
    Prop where
  known : e ⊆ known
  other : t.terminal ∉ e
  ending : ∀ k ∈ ending.head?, k ∈ e

/-- What reading a token may come to. -/
def Outcome (t : Token) (known : Expected) (ending : List Terminal) :
    Except Expected State → Prop
  | .ok next => After t.terminal next
  | .error e => Refuses t known ending e

/-- What beginning a part may come to: none is begun by a token the part cannot begin with. -/
def Beginning (t : Token) (first : Expected) : Option State → Prop
  | some next => After t.terminal next
  | none => t.terminal ∉ first

section

variable {t : Token} {known e : Expected} {ending : List Terminal}

theorem Outcome.mono {known' : Expected} {x : Except Expected State} (hk : known ⊆ known')
    (h : Outcome t known ending x) : Outcome t known' ending x := by
  cases x with
  | ok next => exact h
  | error e => exact ⟨List.Subset.trans h.known hk, h.other, h.ending⟩

theorem head_nil : ∀ j ∈ ([] : List Terminal).head?, j ∈ e := nofun

theorem head_mem {k : Terminal} {rest : List Terminal} (h : k ∈ e) :
    ∀ j ∈ (k :: rest).head?, j ∈ e := by
  rintro _ ⟨⟩
  exact h

theorem outcome_ok {k : Terminal} {next : State} (h : t.terminal = k) (ha : After k next) :
    Outcome t known ending (.ok next) := by
  rw [← h] at ha
  exact ha

theorem outcome_require {f : Unit → Except Expected State} (hk : e ⊆ known)
    (hend : ∀ k ∈ ending.head?, k ∈ e) (h : t.terminal ∈ e → Outcome t known ending (f ())) :
    Outcome t known ending (require t e >>= f) := by
  unfold require
  by_cases hm : t.terminal ∈ e
  · rw [if_pos hm]
    exact h hm
  · rw [if_neg hm]
    exact ⟨hk, hm, hend⟩

theorem outcome_requireAs {short : Expected} {f : Unit → Except Expected State} (hs : short ⊆ e)
    (hk : e ⊆ known) (hend : ∀ k ∈ ending.head?, k ∈ short)
    (h : t.terminal ∈ e → Outcome t known ending (f ())) :
    Outcome t known ending ((require t e).mapError (fun _ => short) >>= f) := by
  unfold require
  by_cases hm : t.terminal ∈ e
  · rw [if_pos hm]
    exact h hm
  · rw [if_neg hm]
    exact ⟨List.Subset.trans hs hk, fun ht => hm (hs ht), hend⟩

/-- Where only one sort of token is known, it leads on. -/
theorem outcome_only {k : Terminal} {rest : List Terminal} {next : State}
    {f : Unit → Except Expected State} (hk : k ∈ known) (hf : f () = .ok next)
    (ha : After k next) : Outcome t known (k :: rest) (require t [k] >>= f) := by
  refine outcome_require (List.cons_subset.mpr ⟨hk, List.nil_subset _⟩)
    (head_mem (List.mem_singleton.mpr rfl)) fun h => ?_
  rw [hf]
  exact outcome_ok (List.mem_singleton.mp h) ha

theorem outcome_begun {o : Option State} (hk : e ⊆ known) (hend : ∀ k ∈ ending.head?, k ∈ e)
    (h : Beginning t e o) : Outcome t known ending (begun e o) := by
  cases o with
  | some next => exact h
  | none => exact ⟨hk, h, hend⟩

/-! ## Beginning a part -/

theorem Beginning.imp {first other : Expected} {o : Option State} (h : Beginning t first o)
    (hother : t.terminal ∈ other → t.terminal ∈ first) : Beginning t other o := by
  cases o with
  | some next => exact h
  | none => exact fun hm => h (hother hm)

/-- Another sort of token with which a part could begin, if the token is not of it. -/
theorem Beginning.cons {k : Terminal} {first : Expected} {o : Option State}
    (h : Beginning t first o) (hk : t.terminal ≠ k) : Beginning t (k :: first) o :=
  h.imp fun hm => (List.mem_cons.mp hm).resolve_left hk

theorem beginning_primary (c : PrimaryContext) :
    Beginning t .primary (beginPrimary? t c) := by
  unfold beginPrimary?
  split
  · next h => rw [Beginning, h]; exact .name ..
  · next h => rw [Beginning, h]; exact .literal _ _ (by decide)
  · next h => rw [Beginning, h]; exact .literal _ _ (by decide)
  · next h => rw [Beginning, h]; exact .expr _
  · next hi hn hs hp =>
    simp only [Beginning, Expected.primary, List.mem_cons, List.not_mem_nil, or_false, not_or]
    exact ⟨hi, hp, hn, hs⟩

theorem beginning_operand (before : List (Node × Operator)) (c : ExprContext) :
    Beginning t .operand (beginOperand? t before c) := by
  unfold beginOperand?
  split
  · next h => rw [Beginning, h]; exact .sign ..
  · next h => exact (beginning_primary (.operand before false c)).cons h

theorem beginning_expr (c : ExprContext) : Beginning t .expr (beginExpr? t c) := by
  unfold beginExpr?
  split
  · next h => rw [Beginning, h]; exact .functionHead ..
  · next h => exact (beginning_operand [] c).cons h

theorem beginning_cluster (c : ClusterContext) :
    Beginning t .cluster (beginCluster? t c) := by
  unfold beginCluster?
  split
  · next h => rw [Beginning, h]; exact .block _
  · next h => rw [Beginning, h]; exact .scope _
  · next hb hs => exact ((beginning_expr (.cluster c)).cons hs).cons hb

/-- A separator may stand where a statement may, but begins none. -/
theorem beginning_stmt (hsep : t.terminal ≠ .separator) (c : StmtContext) :
    Beginning t .stmt (beginStmt? t c) := by
  unfold beginStmt?
  split
  · next h => rw [Beginning, h]; exact .condition _
  · next h => rw [Beginning, h]; exact .loopCondition _
  · next h => rw [Beginning, h]; exact .bindingHead _
  · next hi hw hl =>
    exact ((((beginning_cluster (.stmt c)).cons hsep).cons hl).cons hw).cons hi

theorem after_argument {callee : Binder} {before : List Node} {c : PrimaryContext}
    {next : State} (h : beginArgument? t callee before c = some next) :
    After t.terminal next := by
  unfold beginArgument? at h
  split at h
  · next ht => rw [← Option.some.inj h, ht]; exact .name ..
  · next ht => rw [← Option.some.inj h, ht]; exact .argument _ _ _ (by decide)
  · next ht => rw [← Option.some.inj h, ht]; exact .argument _ _ _ (by decide)
  · next ht => rw [← Option.some.inj h, ht]; exact .argument _ _ _ (by decide)
  · next ht => rw [← Option.some.inj h, ht]; exact .expr _
  · next ht => rw [← Option.some.inj h, ht]; exact .block _
  · next ht => rw [← Option.some.inj h, ht]; exact .scope _
  · exact nomatch h

/-! ## Completing a part -/

/-- What completes a context first may stand behind the part it is a context of. -/
theorem head_stmt (c : StmtContext) : ∀ k ∈ c.ending.head?, k ∈ Expected.afterStmt := by
  cases c with
  | line before => exact head_mem (by decide)
  | item form fresh before outer => exact head_mem (by cases form <;> decide)

theorem head_stmt_expr (c : StmtContext) : ∀ k ∈ c.ending.head?, k ∈ Expected.afterExpr :=
  fun k hk => List.mem_cons_of_mem _ (List.mem_cons_of_mem _ (head_stmt c k hk))

mutual

theorem head_cluster : ∀ c : ClusterContext, ∀ k ∈ c.ending.head?, k ∈ Expected.afterExpr
  | .stmt c => head_stmt_expr c
  | .thenBlock _ c => head_stmt_expr c
  | .elseBlock _ _ c => head_stmt_expr c
  | .loopBody _ c => head_stmt_expr c
  | .codes _ _ _ c => head_stmt_expr c
  | .functionBody _ _ c => head_expr c

theorem head_expr : ∀ c : ExprContext, ∀ k ∈ c.ending.head?, k ∈ Expected.afterExpr
  | .cluster c => head_cluster c
  | .group _ => head_mem (by decide)
  | .argument _ _ _ => head_mem (by decide)

end

theorem head_primary (c : PrimaryContext) :
    ∀ k ∈ c.ending.head?, k ∈ Expected.afterPrimary := by
  cases c with
  | condition c => exact head_mem (by decide)
  | loopCondition c => exact head_mem (by decide)
  | operand before negated c =>
      intro k hk
      have hs : Expected.afterExpr ⊆ Expected.afterPrimary := by decide
      exact hs (head_expr c k hk)

theorem outcome_closeItems (form : Enclosure) (items : List Node) (c : EnclosedContext)
    (hk : form.closer ∈ known) :
    Outcome t known (form.closer :: c.ending) (closeItems t form items c) := by
  unfold closeItems
  by_cases h : t.terminal = form.closer
  · rw [if_pos h]
    have hm : form.closer ∈ [Terminal.closeBrace, .closeSquare] := by cases form <;> decide
    rw [Outcome, h]
    cases c with
    | cluster c => exact .enclosed _ _ hm
    | argument callee before c =>
        refine .argument _ _ _ ?_
        cases form <;> decide
  · rw [if_neg h]
    exact ⟨List.cons_subset.mpr ⟨hk, List.nil_subset _⟩,
      fun ht => h (List.mem_singleton.mp ht), head_mem (List.mem_singleton.mpr rfl)⟩

theorem outcome_closeStmt (n : Node) (c : StmtContext) :
    Outcome t .afterStmt c.ending (closeStmt t n c) := by
  unfold closeStmt
  refine outcome_require (List.Subset.refl _) (head_stmt c) fun _ => ?_
  cases c with
  | line before =>
      exact outcome_only (by decide) rfl (.line _)
  | item form fresh before outer =>
      by_cases h : t.terminal = .separator
      · simp only [h, if_true]
        exact outcome_ok h (.laterItem ..)
      · simp only [h, if_false]
        exact outcome_closeItems form _ outer (by cases form <;> decide)

/-- The same for a statement that its last expression ends. -/
theorem outcome_closeStmt_expr (n : Node) (c : StmtContext) :
    Outcome t .afterExpr c.ending (closeStmt t n c) :=
  (outcome_closeStmt n c).mono (by decide)

mutual

theorem outcome_closeCluster (n : Node) :
    ∀ c : ClusterContext, Outcome t .afterExpr c.ending (closeCluster t n c)
  | .stmt c => by
      rw [closeCluster]
      exact outcome_closeStmt_expr n c
  | .thenBlock condition c => by
      rw [closeCluster]
      refine outcome_require (by decide) ?_ fun _ => ?_
      · exact fun k hk => List.mem_cons_of_mem _ (head_stmt c k hk)
      · by_cases h : t.terminal = .elseWord
        · simp only [h, if_true]
          exact outcome_ok h (.cluster _ (by decide))
        · simp only [h, if_false]
          exact outcome_closeStmt_expr _ c
  | .elseBlock condition thenBlock c => by
      rw [closeCluster]
      exact outcome_closeStmt_expr _ c
  | .loopBody condition c => by
      rw [closeCluster]
      exact outcome_closeStmt_expr _ c
  | .codes form named params c => by
      rw [closeCluster]
      exact outcome_closeStmt_expr _ c
  | .functionBody pos params c => by
      rw [closeCluster]
      exact outcome_require (List.Subset.refl _) (head_expr c) fun _ => outcome_closeExpr _ c

theorem outcome_closeExpr (n : Node) :
    ∀ c : ExprContext, Outcome t .afterExpr c.ending (closeExpr t n c)
  | .cluster c => by
      rw [closeExpr]
      exact outcome_closeCluster n c
  | .group c => by
      rw [closeExpr]
      exact outcome_only (by decide) rfl (.group ..)
  | .argument callee before c => by
      rw [closeExpr]
      exact outcome_only (by decide) rfl (.argument _ _ _ (by decide))

end

theorem outcome_closePrimary (n : Node) (c : PrimaryContext) :
    Outcome t .afterPrimary c.ending (closePrimary t n c) := by
  cases c with
  | condition c =>
      exact outcome_begun (by decide) (head_mem (by decide)) (beginning_cluster _)
  | loopCondition c =>
      exact outcome_begun (by decide) (head_mem (by decide)) (beginning_cluster _)
  | operand before negated c =>
      have hs : Expected.afterExpr ⊆ Expected.afterOperand := by decide
      refine outcome_require (by decide) (fun k hk => hs (head_expr c k hk)) fun _ => ?_
      by_cases h : t.terminal = .operator ∨ t.terminal = .minus
      · simp only [h, if_true]
        exact .operand _ _ (by simpa using h)
      · simp only [h, if_false]
        exact (outcome_closeExpr _ c).mono (by decide)

/-! ## One token -/

/-- Between brackets the closing one is known. -/
theorem closer_known (form : Enclosure) (fresh : Bool) (before : List Node)
    (c : EnclosedContext) :
    form.closer ∈ (State.stmt (.item form fresh before c)).expected := by
  have hlater : form.closer ∈ Expected.laterItem := by cases form <;> decide
  cases fresh with
  | true => exact List.mem_cons_self ..
  | false => exact hlater

/-- What is known there and is no closing bracket begins a statement. -/
theorem item_known {form : Enclosure} {fresh : Bool} {before : List Node} {c : EnclosedContext}
    {k : Terminal} (h : k ∈ (State.stmt (.item form fresh before c)).expected) :
    (k = .closeBrace ∨ k = .closeSquare) ∨ k ∈ Expected.stmt := by
  cases fresh with
  | true =>
      rcases List.mem_cons.mp h with hk | hk
      · cases form with
        | block => exact .inl (.inl hk)
        | scope => exact .inl (.inr hk)
      · exact .inr hk
  | false =>
      rcases List.mem_cons.mp h with hk | hk
      · exact .inl (.inl hk)
      · exact (List.mem_cons.mp hk).imp .inr id

theorem outcome_stmt (hend : t.terminal ≠ .endOfInput) (c : StmtContext) :
    Outcome t (State.stmt c).expected (State.stmt c).ending (step t (.stmt c)) := by
  cases c with
  | line before =>
      rw [step]
      by_cases h : t.terminal = .separator
      · rw [if_pos h, Outcome, h]
        exact .line _
      · rw [if_neg h]
        exact outcome_begun (List.Subset.refl _) head_nil ((beginning_stmt h _).cons hend)
  | item form fresh before outer =>
      have hcloser := closer_known form fresh before outer
      rw [step]
      refine outcome_require (List.Subset.refl _) (head_mem hcloser) fun _ => ?_
      by_cases h : t.terminal = .separator
      · simp only [h, if_true]
        exact outcome_ok h (.laterItem ..)
      · rw [if_neg h]
        by_cases h' : t.terminal = .closeBrace ∨ t.terminal = .closeSquare
        · rw [if_pos h']
          exact outcome_closeItems form before outer hcloser
        · rw [if_neg h']
          refine outcome_begun (List.Subset.refl _) (head_mem hcloser) ?_
          exact (beginning_stmt h _).imp fun hm => (item_known hm).resolve_left h'

/-- A part that a number could begin. -/
theorem outcome_number {o : Option State} (hn : .number ∈ e) (h : Beginning t e o)
    (rest : List Terminal) : Outcome t e (.number :: rest) (begun e o) :=
  outcome_begun (List.Subset.refl _) (head_mem hn) h

/-- Names are read up to the token that ends them. -/
theorem outcome_names {k : Terminal} {first second : Expected} (hsecond : second ⊆ first)
    (hthird : [k, .identifier] ⊆ second) {done more : State}
    (hdone : After k done) (hmore : After .identifier more) (rest : List Terminal) :
    Outcome t first (k :: rest) (do
      require t first
      require t second
      (require t [k, .identifier]).mapError fun _ => [k]
      if t.terminal = k then return done
      return more) := by
  have hk : k ∈ second := hthird (List.mem_cons_self ..)
  have hshort : [k] ⊆ [k, .identifier] :=
    List.cons_subset.mpr ⟨List.mem_cons_self .., List.nil_subset _⟩
  refine outcome_require (List.Subset.refl _) (head_mem (hsecond hk)) fun _ =>
    outcome_require hsecond (head_mem hk) fun _ =>
      outcome_requireAs hshort (List.Subset.trans hthird hsecond)
        (head_mem (List.mem_singleton.mpr rfl)) fun hm => ?_
  by_cases h : t.terminal = k
  · rw [if_pos h]
    exact outcome_ok h hdone
  · rw [if_neg h]
    exact outcome_ok (List.mem_singleton.mp ((List.mem_cons.mp hm).resolve_left h)) hmore

theorem outcome_state_primary (c : PrimaryContext) :
    Outcome t (State.primary c).expected (State.primary c).ending (step t (.primary c)) := by
  cases c with
  | condition c => exact outcome_number (e := .primary) (by decide) (beginning_primary _) _
  | loopCondition c => exact outcome_number (e := .primary) (by decide) (beginning_primary _) _
  | operand before negated c =>
      cases negated with
      | true =>
          exact outcome_number (e := .primary) (by decide) (beginning_primary _) c.ending
      | false =>
          exact outcome_number (e := .operand) (by decide) (beginning_operand before c) c.ending

theorem outcome_bindingHead (form : BindingForm) (c : StmtContext) :
    Outcome t (State.bindingHead form c).expected (State.bindingHead form c).ending
      (step t (.bindingHead form c)) := by
  have hname : Terminal.identifier ∈ (State.bindingHead form c).expected := by
    cases form with
    | value => exact List.mem_cons_self ..
    | template => exact List.mem_cons_self ..
  refine outcome_require (List.Subset.refl _) (head_mem hname) fun hm => ?_
  by_cases h : t.terminal = .macroWord
  · simp only [h, if_true]
    exact outcome_ok h (.templateHead c)
  · simp only [h, if_false]
    have ht : t.terminal = .identifier := by
      cases form with
      | value => exact (List.mem_cons.mp hm).resolve_right fun hl => h (List.mem_singleton.mp hl)
      | template => exact List.mem_singleton.mp hm
    exact outcome_ok ht (.bindingName ..)

theorem outcome_applied (callee : Binder) (arguments : List Node) (behindName : Bool)
    (c : PrimaryContext) :
    Outcome t (State.applied callee arguments behindName c).expected c.ending
      (step t (.applied callee arguments behindName c)) := by
  have hknown : Expected.afterArgument ⊆
      (State.applied callee arguments behindName c).expected := by
    cases behindName with
    | true => exact List.Subset.trans (List.subset_cons_self ..) (List.subset_cons_self ..)
    | false => exact List.Subset.refl _
  have hhead : ∀ k ∈ c.ending.head?, k ∈ Expected.afterArgument :=
    fun k hk => List.mem_cons_of_mem _ (head_primary c k hk)
  refine outcome_require (List.Subset.refl _) (fun k hk => hknown (hhead k hk)) fun _ => ?_
  cases hx : beginArgument? t callee arguments c with
  | some next => exact after_argument hx
  | none =>
      refine outcome_require hknown hhead fun _ => ?_
      exact (outcome_closePrimary _ c).mono
        (List.Subset.trans (List.subset_cons_self ..) hknown)

/-- **OUTCOME**: a token leads to a state that may be behind it, or it is refused, and then the
    state knows what is listed instead. -/
theorem step_outcome (hend : t.terminal ≠ .endOfInput) (s : State) :
    Outcome t s.expected s.ending (step t s) := by
  cases s with
  | stmt c => exact outcome_stmt hend c
  | expr c => exact outcome_number (e := .expr) (by decide) (beginning_expr c) c.ending
  | cluster c => exact outcome_number (e := .cluster) (by decide) (beginning_cluster c) c.ending
  | primary c => exact outcome_state_primary c
  | bindingHead form c => exact outcome_bindingHead form c
  | bindingParams form named params c =>
      have hsecond : (if params.isEmpty then Expected.bindingName else Expected.param) ⊆
          Expected.afterName ∧ [Terminal.equals, .identifier] ⊆
            (if params.isEmpty then Expected.bindingName else Expected.param) := by
        split <;> decide
      exact outcome_names hsecond.1 hsecond.2 (.cluster _ (by decide)) (.bindingName ..) _
  | functionHead pos c =>
      exact outcome_only (List.mem_singleton.mpr rfl) rfl (.functionParam ..)
  | functionParams pos params c =>
      have hparam : Expected.param ⊆ Expected.afterName := by decide
      exact outcome_names hparam (by decide) (.cluster _ (by decide)) (.functionParam ..) _
  | applied callee arguments behindName c =>
      exact outcome_applied callee arguments behindName c
  | literal n c =>
      have hknown : Expected.afterPrimary ⊆ Expected.afterArgument := List.subset_cons_self ..
      refine outcome_require (List.Subset.refl _) (fun k hk => hknown (head_primary c k hk))
        fun _ => outcome_require hknown (head_primary c) fun _ => ?_
      exact (outcome_closePrimary n c).mono hknown
  | group n c =>
      exact outcome_require (List.Subset.refl _) (head_primary c) fun _ =>
        outcome_closePrimary n c
  | enclosed n c =>
      have hknown : Expected.afterExpr ⊆ Expected.afterArgument := by decide
      refine outcome_require (List.Subset.refl _) (fun k hk => hknown (head_cluster c k hk))
        fun _ => outcome_require hknown (head_cluster c) fun _ => ?_
      exact (outcome_closeCluster n c).mono hknown

theorem step_after (hend : t.terminal ≠ .endOfInput) {s next : State}
    (h : step t s = .ok next) : After t.terminal next := by
  have ho := step_outcome hend s
  rw [h] at ho
  exact ho

theorem step_refuses (hend : t.terminal ≠ .endOfInput) {s : State} (h : step t s = .error e) :
    Refuses t s.expected s.ending e := by
  have ho := step_outcome hend s
  rw [h] at ho
  exact ho

/-! ## Refusals where nothing is closed -/

/-- Terminals behind which some part is still to come: no part ends with them. -/
def openingSorts : List Terminal :=
  [.macroWord, .whileWord, .elseWord, .funWord, .letWord, .operator, .ifWord, .arrow, .equals,
    .openBrace, .openParen, .openSquare, .minus]

theorem begun_error {o : Option State} {e' : Expected} (h : begun e o = .error e') : e' = e := by
  cases o with
  | some next => exact nomatch h
  | none => exact (Except.error.inj h).symm

theorem require_error {f : Unit → Except Expected State} {e' : Expected}
    (h : require t e >>= f = .error e') : e' = e ∨ t.terminal ∈ e ∧ f () = .error e' := by
  unfold require at h
  by_cases hm : t.terminal ∈ e
  · rw [if_pos hm] at h
    exact .inr ⟨hm, h⟩
  · rw [if_neg hm] at h
    exact .inl (Except.error.inj h).symm

/-- On a line of the program all that is known is listed. -/
theorem refused_line {before : List Node} (h : step t (.stmt (.line before)) = .error e) :
    e = Expected.line := by
  rw [step] at h
  split at h
  · cases h
  · exact begun_error h

/-- Between brackets so it is, unless the token is the closing bracket of the other form. -/
theorem refused_item {form : Enclosure} {fresh : Bool} {before : List Node}
    {c : EnclosedContext} (h : step t (.stmt (.item form fresh before c)) = .error e) :
    e = (State.stmt (.item form fresh before c)).expected ∨
      t.terminal ∈ (State.stmt (.item form fresh before c)).expected ∧
        t.terminal ∈ [.closeBrace, .closeSquare] ∧ t.terminal ≠ form.closer := by
  rw [step] at h
  rcases require_error h with h | ⟨hm, h⟩
  · exact .inl h
  · by_cases hs : t.terminal = .separator
    · rw [if_pos hs] at h
      cases h
    · rw [if_neg hs] at h
      by_cases hc : t.terminal = .closeBrace ∨ t.terminal = .closeSquare
      · rw [if_pos hc, closeItems] at h
        split at h
        · cases h
        · next hne => exact .inr ⟨hm, by simpa using hc, hne⟩
      · rw [if_neg hc] at h
        exact .inl (begun_error h)

/-- Behind an opening bracket only its own closing bracket is known. -/
theorem refused_fresh {form : Enclosure} {c : EnclosedContext}
    (h : step t (.stmt (.item form true [] c)) = .error e) : e = .firstItem form := by
  rcases refused_item h with h | ⟨hm, hc, hne⟩
  · exact h
  · have hno : ∀ j ∈ [Terminal.closeBrace, .closeSquare], j ∉ Expected.stmt := by decide
    exact ((List.mem_cons.mp hm).elim hne (hno _ hc)).elim

theorem refused_bindingHead {form : BindingForm} {c : StmtContext}
    (h : step t (.bindingHead form c) = .error e) :
    e = (State.bindingHead form c).expected := by
  rcases require_error h with h | ⟨-, h⟩
  · exact h
  · split at h <;> exact nomatch h

/-- **NOTHING CLOSED**: behind a token that opens a part, all that is known is listed. -/
theorem refused_opening {k : Terminal} {s : State} (ha : After k s) (hk : k ∈ openingSorts)
    (h : step t s = .error e) : e = s.expected := by
  -- what a part ends with opens none
  have hends : ∀ j ∈ openingSorts,
      j ∉ [Terminal.number, .string, .underline, .closeBrace, .closeSquare, .closeParen] ∧
        j ∉ [Terminal.number, .string] ∧ j ∉ [Terminal.closeBrace, .closeSquare] := by decide
  cases ha with
  | block c => exact refused_fresh h
  | scope c => exact refused_fresh h
  | expr c => exact begun_error h
  | cluster c _ => exact begun_error h
  | sign before c => exact begun_error h
  | operand before c _ => exact begun_error h
  | condition c => exact begun_error h
  | loopCondition c => exact begun_error h
  | bindingHead c => exact refused_bindingHead h
  | templateHead c => exact refused_bindingHead h
  | functionHead pos c =>
      rcases require_error h with h | ⟨-, h⟩
      · exact h
      · exact nomatch h
  | argument callee arguments c hm => exact absurd hm (hends k hk).1
  | literal n c hm => exact absurd hm (hends k hk).2.1
  | enclosed n c hm => exact absurd hm (hends k hk).2.2
  | _ => exact absurd hk (by decide)

/-! ## What is known -/

/-- What is known to the states that are not between lines. -/
def rows : List Expected :=
  [.firstItem .block, .firstItem .scope, .laterItem, .expr, .cluster, .primary, .operand,
    .bindingHead, .name, .afterName, .afterArgument, .afterPrimary]

theorem expected_row (s : State) : (∃ before, s = .stmt (.line before)) ∨ s.expected ∈ rows := by
  cases s with
  | stmt c =>
      cases c with
      | line before => exact .inl ⟨before, rfl⟩
      | item form fresh before outer =>
          cases fresh with
          | true =>
              cases form with
              | block => exact .inr (by decide : Expected.firstItem .block ∈ rows)
              | scope => exact .inr (by decide : Expected.firstItem .scope ∈ rows)
          | false => exact .inr (by decide : Expected.laterItem ∈ rows)
  | expr c => exact .inr (by decide : Expected.expr ∈ rows)
  | cluster c => exact .inr (by decide : Expected.cluster ∈ rows)
  | primary c =>
      have hprimary : Expected.primary ∈ rows := by decide
      cases c with
      | condition c => exact .inr hprimary
      | loopCondition c => exact .inr hprimary
      | operand before negated c =>
          cases negated with
          | true => exact .inr hprimary
          | false => exact .inr (by decide : Expected.operand ∈ rows)
  | bindingHead form c =>
      cases form with
      | value => exact .inr (by decide : Expected.bindingHead ∈ rows)
      | template => exact .inr (by decide : Expected.name ∈ rows)
  | functionHead pos c => exact .inr (by decide : Expected.name ∈ rows)
  | bindingParams form named params c => exact .inr (by decide : Expected.afterName ∈ rows)
  | functionParams pos params c => exact .inr (by decide : Expected.afterName ∈ rows)
  | applied callee arguments behindName c =>
      cases behindName with
      | true => exact .inr (by decide : Expected.afterName ∈ rows)
      | false => exact .inr (by decide : Expected.afterArgument ∈ rows)
  | literal n c => exact .inr (by decide : Expected.afterArgument ∈ rows)
  | group n c => exact .inr (by decide : Expected.afterPrimary ∈ rows)
  | enclosed n c => exact .inr (by decide : Expected.afterArgument ∈ rows)

/-- Filler is known to no state. -/
theorem filler_unknown (s : State) : .filler ∉ s.expected := by
  have hrows : ∀ row ∈ rows, .filler ∉ row := by decide
  rcases expected_row s with ⟨before, rfl⟩ | hrow
  · exact (by decide : .filler ∉ Expected.line)
  · exact hrows _ hrow

/-- The end of the input is known only where a program may end. -/
theorem end_known {s : State} (h : .endOfInput ∈ s.expected) : ∃ stmts, finish s = .ok stmts := by
  have hrows : ∀ row ∈ rows, .endOfInput ∉ row := by decide
  rcases expected_row s with ⟨before, rfl⟩ | hrow
  · exact ⟨before.reverse, rfl⟩
  · exact absurd h (hrows _ hrow)

/-- A text that ends too early could go on with anything that is known. -/
theorem finish_error {s : State} (h : finish s = .error e) : e = s.expected := by
  unfold finish at h
  split at h
  · exact nomatch h
  · exact (Except.error.inj h).symm

end

/-! ## All tokens -/

/-- A run is at a state that may be behind its last token. -/
theorem run_after : ∀ (ts : List Token) (s : State) {reached : State},
    (∀ t ∈ ts, t.terminal ≠ .endOfInput) → run s ts = .ok reached →
      ∀ l ∈ ts.getLast?, After l.terminal reached := by
  intro ts
  induction ts with
  | nil => exact fun _ _ _ _ => nofun
  | cons t rest ih =>
      intro s reached hall h
      obtain ⟨ht, hrest⟩ := List.forall_mem_cons.mp hall
      rw [run] at h
      cases hstep : step t s with
      | error e =>
          rw [hstep] at h
          cases h
      | ok next =>
          rw [hstep] at h
          cases rest with
          | nil =>
              rintro l ⟨⟩
              obtain rfl := Except.ok.inj h
              exact step_after ht hstep
          | cons u more =>
              intro l hl
              rw [List.getLast?_cons_cons] at hl
              exact ih next hrest h l hl

end BasicSyntax.Parse
