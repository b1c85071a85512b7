import BasicSyntax.Proofs.Parse.Outcome

/-! # What a state allows — and what it lists where reading gives up

    A state allows a sort of token if it reads on behind one, and the end of the input if the
    program may end there.  Everything it allows it knows (`allows_known`), since a token that is
    not known is refused at once, and then all that is known is listed (`refused_unknown`).

    The converse fails where reading has closed parts before it gives up: the list is that of a
    later stage, which knows less than the state allows, and knows closing brackets that only
    another context allows.  All the same nothing is listed that is not known, nor the token that
    was met; something is listed that is allowed; and all that is known is, if the token was not
    (`Fails.known`, `Fails.other`, `Fails.some_allowed`, `Fails.all_of_unknown`). -/

namespace BasicSyntax

/-- A token of a sort, whatever its text. -/
def Terminal.bare (k : Terminal) : Token :=
  ⟨k, "", 0, .start⟩

theorem Terminal.bare_sorts (ks : List Terminal) :
    (ks.map Terminal.bare).map Token.terminal = ks := by
  rw [List.map_map]
  exact List.map_id _

namespace Parse

/-- The program may go on with a token of the sort, or end. -/
def State.Allows (s : State) (k : Terminal) : Prop :=
  (k = .endOfInput ∧ ∃ stmts, finish s = .ok stmts) ∨
    (k ≠ .endOfInput ∧ ∃ next, step k.bare s = .ok next)

/-- Reading gives up at the next token or at the end of the input, and lists what it expected. -/
def State.Fails (s : State) : Option Token → Expected → Prop
  | some t, e => t.terminal ≠ .endOfInput ∧ step t s = .error e
  | none, e => finish s = .error e

/-! ## Tokens that are not known -/

section

variable {t : Token} {e : Expected} {next : State}

theorem primary_known {c : PrimaryContext} (h : beginPrimary? t c = some next) :
    t.terminal ∈ Expected.primary := by
  unfold beginPrimary? at h
  split at h
  · next ht => rw [ht]; decide
  · next ht => rw [ht]; decide
  · next ht => rw [ht]; decide
  · next ht => rw [ht]; decide
  · exact nomatch h

theorem operand_known {before : List (Node × Operator)} {c : ExprContext}
    (h : beginOperand? t before c = some next) : t.terminal ∈ Expected.operand := by
  unfold beginOperand? at h
  split at h
  · next ht => rw [ht]; decide
  · exact List.mem_cons_of_mem _ (primary_known h)

theorem expr_known {c : ExprContext} (h : beginExpr? t c = some next) :
    t.terminal ∈ Expected.expr := by
  unfold beginExpr? at h
  split at h
  · next ht => rw [ht]; decide
  · exact List.mem_cons_of_mem _ (operand_known h)

theorem cluster_known {c : ClusterContext} (h : beginCluster? t c = some next) :
    t.terminal ∈ Expected.cluster := by
  unfold beginCluster? at h
  split at h
  · next ht => rw [ht]; decide
  · next ht => rw [ht]; decide
  · exact List.mem_append_right [.openBrace, .openSquare] (expr_known h)

theorem stmt_known {c : StmtContext} (h : beginStmt? t c = some next) :
    t.terminal ∈ Expected.stmt := by
  unfold beginStmt? at h
  split at h
  · next ht => rw [ht]; decide
  · next ht => rw [ht]; decide
  · next ht => rw [ht]; decide
  · exact List.mem_append_right [.ifWord, .whileWord, .letWord, .separator] (cluster_known h)

theorem begun_unknown {o : Option State} (hknown : ∀ {next}, o = some next → t.terminal ∈ e)
    (h : t.terminal ∉ e) : begun e o = .error e := by
  cases o with
  | none => rfl
  | some next => exact absurd (hknown rfl) h

theorem require_unknown {f : Unit → Except Expected State} (h : t.terminal ∉ e) :
    require t e >>= f = .error e := by
  rw [require, if_neg h]
  rfl

/-- **NOT KNOWN**: a token that a state does not know is refused at once. -/
theorem refused_unknown {s : State} (h : t.terminal ∉ s.expected) :
    step t s = .error s.expected := by
  cases s with
  | stmt c =>
      cases c with
      | line before =>
          have hsep : t.terminal ≠ .separator :=
            fun ht => h (ht ▸ (by decide : .separator ∈ Expected.line))
          rw [step, if_neg hsep]
          exact begun_unknown (fun hx => List.mem_cons_of_mem _ (stmt_known hx)) h
      | item form fresh before outer =>
          rw [step]
          exact require_unknown h
  | expr c => exact begun_unknown expr_known h
  | cluster c => exact begun_unknown cluster_known h
  | primary c =>
      cases c with
      | condition c => exact begun_unknown primary_known h
      | loopCondition c => exact begun_unknown primary_known h
      | operand before negated c =>
          cases negated with
          | true => exact begun_unknown primary_known h
          | false => exact begun_unknown operand_known h
  | bindingHead form c => exact require_unknown h
  | bindingParams form named params c => exact require_unknown h
  | functionHead pos c => exact require_unknown h
  | functionParams pos params c => exact require_unknown h
  | applied callee arguments behindName c => exact require_unknown h
  | literal n c => exact require_unknown h
  | group n c => exact require_unknown h
  | enclosed n c => exact require_unknown h

end

/-! ## What is allowed -/

section

variable {s : State} {k : Terminal}

/-- **KNOWN**: what a state allows it knows. -/
theorem allows_known (h : s.Allows k) : k ∈ s.expected := by
  rcases h with ⟨rfl, stmts, hf⟩ | ⟨-, next, hstep⟩
  · rw [finish_ok hf]
    exact (by decide : .endOfInput ∈ Expected.line)
  · refine Decidable.byContradiction fun hno => ?_
    have hrefused : step k.bare s = .error s.expected := refused_unknown hno
    rw [hrefused] at hstep
    exact nomatch hstep

/-- What a state knows it allows, if it lists all it knows where it refuses such a token. -/
theorem allows_of_refusals (hall : ∀ e, step k.bare s = .error e → e = s.expected)
    (hk : k ∈ s.expected) : s.Allows k := by
  by_cases hend : k = .endOfInput
  · exact .inl ⟨hend, end_known (hend ▸ hk)⟩
  · refine .inr ⟨hend, ?_⟩
    cases hstep : step k.bare s with
    | ok next => exact ⟨next, rfl⟩
    | error e =>
        have hother := (step_refuses hend hstep).other
        rw [hall e hstep] at hother
        exact absurd hk hother

/-- Between lines, and behind a token that opens a part, all that is known is allowed. -/
theorem allows_line {before : List Node} (hk : k ∈ Expected.line) :
    (State.stmt (.line before)).Allows k :=
  allows_of_refusals (fun _ h => refused_line h) hk

theorem allows_opening {l : Terminal} (ha : After l s) (hl : l ∈ openingSorts)
    (hk : k ∈ s.expected) : s.Allows k :=
  allows_of_refusals (fun _ h => refused_opening ha hl h) hk

/-- Between brackets so it is but for the closing bracket of the other form. -/
theorem allows_item {form : Enclosure} {fresh : Bool} {before : List Node}
    {c : EnclosedContext} (hk : k ∈ (State.stmt (.item form fresh before c)).expected)
    (hother : k ∈ [.closeBrace, .closeSquare] → k = form.closer) :
    (State.stmt (.item form fresh before c)).Allows k := by
  refine allows_of_refusals (fun e h => ?_) hk
  rcases refused_item h with h | ⟨-, hc, hne⟩
  · exact h
  · exact absurd (hother hc) hne

/-- What completes a program first is allowed. -/
theorem allows_head (s : State) (hk : k ∈ s.ending.head?) : s.Allows k := by
  obtain ⟨rest, hrest⟩ := List.head?_eq_some_iff.mp hk
  have hsorts : OfSorts s.ending (s.ending.map Terminal.bare) := Terminal.bare_sorts _
  have hend : k ≠ .endOfInput := by
    have hsort := ending_sorts s k (hrest ▸ List.mem_cons_self ..)
    rintro rfl
    exact absurd hsort (by decide)
  have hsep : Terminal.separator.bare.terminal = .separator := rfl
  obtain ⟨reached, out, hrun, -⟩ := run_ending s hsorts hsep
  rw [hrest, List.map_cons, List.cons_append, run] at hrun
  cases hstep : step k.bare s with
  | ok next => exact .inr ⟨hend, next, hstep⟩
  | error e =>
      rw [hstep] at hrun
      cases hrun

/-- Only between lines there is nothing to complete. -/
theorem ending_some (s : State) :
    (∃ before, s = .stmt (.line before)) ∨ ∃ k, k ∈ s.ending.head? := by
  have hclosing : ∀ {ks : List Terminal}, Closing ks → ∃ k, k ∈ ks.head? := by
    intro ks h
    obtain ⟨k, rest, rfl, -⟩ := h.head
    exact ⟨k, rfl⟩
  cases s with
  | stmt c =>
      cases c with
      | line before => exact .inl ⟨before, rfl⟩
      | item form fresh before outer => exact .inr ⟨_, rfl⟩
  | applied callee arguments behindName c => exact .inr (hclosing (closing_primary c))
  | literal n c => exact .inr (hclosing (closing_primary c))
  | group n c => exact .inr (hclosing (closing_primary c))
  | enclosed n c => exact .inr (hclosing (closing_cluster c))
  | _ => exact .inr ⟨_, rfl⟩

end

/-! ## What is listed -/

section

variable {s : State} {met : Option Token} {e : Expected}

theorem State.Fails.known (h : s.Fails met e) : e ⊆ s.expected := by
  cases met with
  | some t => exact (step_refuses h.1 h.2).known
  | none => rw [finish_error h]; exact List.Subset.refl _

theorem State.Fails.other (h : s.Fails met e) : ∀ t ∈ met, t.terminal ∉ e := by
  rintro t rfl
  exact (step_refuses h.1 h.2).other

/-- Something is listed that is allowed. -/
theorem State.Fails.some_allowed (h : s.Fails met e) : ∃ k ∈ e, s.Allows k := by
  rcases ending_some s with ⟨before, rfl⟩ | ⟨k, hk⟩
  · cases met with
    | some t =>
        rw [refused_line h.2]
        exact ⟨.separator, by decide, allows_line (by decide)⟩
    | none => exact nomatch h
  · refine ⟨k, ?_, allows_head s hk⟩
    cases met with
    | some t => exact (step_refuses h.1 h.2).ending k hk
    | none => rw [finish_error h]; exact allows_known (allows_head s hk)

/-- Where no stage has closed anything, everything that is known is listed. -/
theorem State.Fails.all_of_unknown (h : s.Fails met e)
    (hmet : ∀ t ∈ met, t.terminal ∉ s.expected) : e = s.expected := by
  cases met with
  | some t => exact Except.error.inj (h.2.symm.trans (refused_unknown (hmet t rfl)))
  | none => exact finish_error h

/-- Between lines, and behind a token that opens a part, no stage has. -/
theorem State.Fails.line {before : List Node} (h : (State.stmt (.line before)).Fails met e) :
    e = Expected.line := by
  cases met with
  | some t => exact refused_line h.2
  | none => exact nomatch h

theorem State.Fails.opening {l : Terminal} (h : s.Fails met e) (ha : After l s)
    (hl : l ∈ openingSorts) : e = s.expected := by
  cases met with
  | some t => exact refused_opening ha hl h.2
  | none => exact finish_error h

/-- Nor has one between brackets, unless the token is a closing bracket. -/
theorem State.Fails.item {form : Enclosure} {fresh : Bool} {before : List Node}
    {c : EnclosedContext} (h : (State.stmt (.item form fresh before c)).Fails met e)
    (hmet : ∀ t ∈ met, t.terminal ∉ [.closeBrace, .closeSquare]) :
    e = (State.stmt (.item form fresh before c)).expected := by
  cases met with
  | some t =>
      rcases refused_item h.2 with h | ⟨-, hc, -⟩
      · exact h
      · exact absurd hc (hmet t rfl)
  | none => exact finish_error h

end

/-! ## What may stand behind a token -/

/-- What is known to some state behind a token of a sort. -/
def followers : Terminal → Expected
  | .separator => .line ++ .laterItem
  | .openBrace => .firstItem .block
  | .openSquare => .firstItem .scope
  | .openParen => .expr
  | .equals | .arrow | .elseWord => .cluster
  | .minus | .operator => .operand
  | .ifWord | .whileWord => .primary
  | .letWord => .bindingHead
  | .macroWord | .funWord => .name
  | .identifier => .afterName
  | .number | .string | .underline | .closeBrace | .closeSquare | .closeParen => .afterArgument
  | .filler | .endOfInput => []

/-- Nothing else is known behind it, and behind most sorts all states know the same. -/
theorem after_followers {k : Terminal} {s : State} (h : After k s) :
    s.expected ⊆ followers k ∧
      (k ∉ [.separator, .closeParen, .minus] → s.expected = followers k) := by
  have hsame : ∀ {s : State} {k : Terminal}, s.expected = followers k →
      s.expected ⊆ followers k ∧
        (k ∉ [.separator, .closeParen, .minus] → s.expected = followers k) :=
    fun heq => ⟨fun j hj => heq ▸ hj, fun _ => heq⟩
  -- a separator stands between lines or inside brackets, a minus is a sign or an operator, and a
  -- round bracket closes an operand or an argument
  cases h with
  | line before => exact ⟨List.subset_append_left .., fun hno => absurd (by decide) hno⟩
  | laterItem form before c =>
      exact ⟨List.subset_append_right .., fun hno => absurd (by decide) hno⟩
  | sign before c =>
      exact ⟨(by decide : Expected.primary ⊆ followers .minus), fun hno => absurd (by decide) hno⟩
  | group n c =>
      exact ⟨(by decide : Expected.afterPrimary ⊆ followers .closeParen),
        fun hno => absurd (by decide) hno⟩
  | cluster c hk =>
      have hall : ∀ j ∈ [Terminal.equals, .arrow, .elseWord], Expected.cluster = followers j := by
        decide
      exact hsame (hall k hk)
  | operand before c hk =>
      have hall : ∀ j ∈ [Terminal.operator, .minus], Expected.operand = followers j := by decide
      exact hsame (hall k hk)
  | argument callee arguments c hk =>
      have hall : ∀ j ∈ [Terminal.number, .string, .underline, .closeBrace, .closeSquare,
          .closeParen], Expected.afterArgument = followers j := by decide
      exact hsame (hall k hk)
  | literal n c hk =>
      have hall : ∀ j ∈ [Terminal.number, .string], Expected.afterArgument = followers j := by
        decide
      exact hsame (hall k hk)
  | enclosed n c hk =>
      have hall : ∀ j ∈ [Terminal.closeBrace, .closeSquare],
          Expected.afterArgument = followers j := by decide
      exact hsame (hall k hk)
  | _ => exact hsame rfl

end Parse

end BasicSyntax
