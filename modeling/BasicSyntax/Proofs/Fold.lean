import BasicSyntax.Fold
import Mathlib.Data.List.Forall2

/-! # Folding — what the fold of a run keeps, and where it comes apart

    The fold looks at the symbols of the operators and joins operands, and does nothing else.
    So two runs with the same symbols whose operands are related one by one have related folds
    (`resolveBy_rel`), and whatever joining keeps the fold keeps (`resolveBy_keeps`).  Operands
    and operators stay in the order of the run (`resolveBy_row`).

    Which of two operators binds first is a matter of priorities: what is not looser than an
    operator binds before whatever that operator does (`bindsBefore_tighter`), and an operator
    binds before what is not tighter than something it binds before (`bindsBefore_looser`).

    A run comes apart at an operator that binds after everything on its left and not before
    anything on its right: its fold joins the folds of the two sides there
    (`resolveBy_split`). -/

namespace BasicSyntax

/-! ## Which of two operators binds first -/

/-- Operators of one priority group to one side. -/
theorem Symbol.leftAssoc_priority : ∀ {s s' : Symbol}, s.priority = s'.priority →
    s.leftAssoc = s'.leftAssoc := by
  intro s s' h
  cases s <;> cases s' <;> first | rfl | exact absurd h (by decide)

namespace Operator

variable {a b c : Operator}

theorem bindsBefore_iff : a.bindsBefore b = true ↔ b.symbol.priority < a.symbol.priority ∨
    a.symbol.priority = b.symbol.priority ∧ b.symbol.leftAssoc = true := by
  rw [bindsBefore, Bool.or_eq_true_iff, decide_eq_true_iff, Bool.and_eq_true_iff, beq_iff_eq]

/-- What binds before an operator is not looser. -/
theorem priority_of_binds (h : a.bindsBefore b = true) :
    b.symbol.priority ≤ a.symbol.priority := by
  rcases bindsBefore_iff.mp h with hlt | ⟨heq, -⟩
  · exact Int.le_of_lt hlt
  · exact Int.le_of_eq heq.symm

/-- What an operator does not bind before is not looser. -/
theorem priority_of_not_binds (h : a.bindsBefore b = false) :
    a.symbol.priority ≤ b.symbol.priority := by
  rw [← Bool.not_eq_true, bindsBefore_iff, not_or] at h
  exact Int.not_lt.mp h.1

/-- What is not looser than an operator binds before whatever the operator does. -/
theorem bindsBefore_tighter (h : a.bindsBefore c = true)
    (hle : a.symbol.priority ≤ b.symbol.priority) : b.bindsBefore c = true := by
  rw [bindsBefore_iff] at h ⊢
  rcases h with hlt | ⟨heq, hassoc⟩
  · exact .inl (by omega)
  · rcases Int.lt_or_eq_of_le hle with hlt | heq'
    · exact .inl (by omega)
    · exact .inr ⟨heq'.symm.trans heq, hassoc⟩

/-- An operator binds before what is not tighter than something it binds before. -/
theorem bindsBefore_looser (h : a.bindsBefore b = true)
    (hle : c.symbol.priority ≤ b.symbol.priority) : a.bindsBefore c = true := by
  rw [bindsBefore_iff] at h ⊢
  rcases h with hlt | ⟨heq, hassoc⟩
  · exact .inl (by omega)
  · rcases Int.lt_or_eq_of_le hle with hlt | heq'
    · exact .inl (by omega)
    · exact .inr ⟨heq.trans heq'.symm, Symbol.leftAssoc_priority heq' ▸ hassoc⟩

/-- Binding before goes through. -/
theorem bindsBefore_trans (hab : a.bindsBefore b = true) (hbc : b.bindsBefore c = true) :
    a.bindsBefore c = true :=
  bindsBefore_tighter hbc (priority_of_binds hab)

/-- What an operator does not bind before, binds before whatever the operator does. -/
theorem bindsBefore_of_not (hab : a.bindsBefore b = false) (hac : a.bindsBefore c = true) :
    b.bindsBefore c = true :=
  bindsBefore_tighter hac (priority_of_not_binds hab)

end Operator

namespace Fold

/-! ## Related runs -/

section

variable {α β : Type} {join : α → Operator → α → α} {join' : β → Operator → β → β}
  {R : α → β → Prop} {O : Operator → Operator → Prop}

/-- Operands and operators that are related, an operand before its operator. -/
def HeldRel (R : α → β → Prop) (O : Operator → Operator → Prop) : Held α → Held β → Prop :=
  List.Forall₂ fun h h' => R h.1 h'.1 ∧ O h.2 h'.2

/-- Operators and operands that are related, an operator before its operand. -/
def PairRel (R : α → β → Prop) (O : Operator → Operator → Prop) :
    List (Pair α) → List (Pair β) → Prop :=
  List.Forall₂ fun p p' => O p.1 p'.1 ∧ R p.2 p'.2

theorem bindsBefore_symbols {left left' right right' : Operator}
    (hl : left.symbol = left'.symbol) (hr : right.symbol = right'.symbol) :
    left.bindsBefore right = left'.bindsBefore right' := by
  rw [Operator.bindsBefore, Operator.bindsBefore, hl, hr]

theorem settle_rel (hO : ∀ {o o'}, O o o' → o.symbol = o'.symbol)
    (hjoin : ∀ {l l' o o' r r'}, R l l' → O o o' → R r r' → R (join l o r) (join' l' o' r'))
    {next next' : Operator} (hnext : O next next') {held : Held α} {held' : Held β}
    (hheld : HeldRel R O held held') : ∀ {x : α} {x' : β}, R x x' →
      HeldRel R O (settle join next held x).1 (settle join' next' held' x').1 ∧
        R (settle join next held x).2 (settle join' next' held' x').2 := by
  induction hheld with
  | nil =>
      intro x x' hx
      exact ⟨.nil, hx⟩
  | @cons h h' held held' hh hrest ih =>
      intro x x' hx
      obtain ⟨left, op⟩ := h
      obtain ⟨left', op'⟩ := h'
      rw [settle, settle, bindsBefore_symbols (hO hh.2) (hO hnext)]
      by_cases hb : op'.bindsBefore next' = true
      · rw [if_pos hb, if_pos hb]
        exact ih (hjoin hh.1 hh.2 hx)
      · rw [if_neg hb, if_neg hb]
        exact ⟨.cons hh hrest, hx⟩

theorem drain_rel
    (hjoin : ∀ {l l' o o' r r'}, R l l' → O o o' → R r r' → R (join l o r) (join' l' o' r'))
    {held : Held α} {held' : Held β} (hheld : HeldRel R O held held') :
    ∀ {x : α} {x' : β}, R x x' → R (drain join held x) (drain join' held' x') := by
  induction hheld with
  | nil =>
      intro x x' hx
      exact hx
  | @cons h h' held held' hh _ ih =>
      intro x x' hx
      exact ih (hjoin hh.1 hh.2 hx)

theorem run_rel (hO : ∀ {o o'}, O o o' → o.symbol = o'.symbol)
    (hjoin : ∀ {l l' o o' r r'}, R l l' → O o o' → R r r' → R (join l o r) (join' l' o' r'))
    {rest : List (Pair α)} {rest' : List (Pair β)} (hrest : PairRel R O rest rest') :
    ∀ {held : Held α} {held' : Held β} {x : α} {x' : β}, HeldRel R O held held' → R x x' →
      R (run join held x rest) (run join' held' x' rest') := by
  induction hrest with
  | nil =>
      intro held held' x x' hheld hx
      exact drain_rel hjoin hheld hx
  | @cons p p' rest rest' hp _ ih =>
      intro held held' x x' hheld hx
      obtain ⟨hsettled, hlatest⟩ := settle_rel hO hjoin hp.1 hheld hx
      exact ih (.cons ⟨hlatest, hp.1⟩ hsettled) hp.2

/-- **RELATED RUNS** have related folds. -/
theorem resolveBy_rel (hO : ∀ {o o'}, O o o' → o.symbol = o'.symbol)
    (hjoin : ∀ {l l' o o' r r'}, R l l' → O o o' → R r r' → R (join l o r) (join' l' o' r'))
    {first : α} {first' : β} {rest : List (Pair α)} {rest' : List (Pair β)}
    (hfirst : R first first') (hrest : PairRel R O rest rest') :
    R (resolveBy join first rest) (resolveBy join' first' rest') :=
  run_rel hO hjoin hrest .nil hfirst

end

variable {α : Type} {join : α → Operator → α → α}

/-- **KEPT**: what joining keeps, for the operators of a run, the fold of the run keeps. -/
theorem resolveBy_keeps {P : α → Prop} {Q : Operator → Prop}
    (hjoin : ∀ {l o r}, P l → Q o → P r → P (join l o r)) {first : α} {rest : List (Pair α)}
    (hfirst : P first) (hrest : ∀ p ∈ rest, Q p.1 ∧ P p.2) :
    P (resolveBy join first rest) := by
  -- what is kept is a relation to itself that looks at one side only
  have hself : PairRel (fun a _ => P a) (fun o o' => Q o ∧ o = o') rest rest := by
    refine List.forall₂_same.mpr ?_
    intro p hp
    obtain ⟨hq, hp'⟩ := hrest p hp
    exact ⟨⟨hq, rfl⟩, hp'⟩
  exact @resolveBy_rel α α join join (fun a _ => P a) (fun o o' => Q o ∧ o = o')
    (fun h => congrArg _ h.2) (fun hl ho hr => hjoin hl ho.1 hr) first first rest rest hfirst
    hself

/-! ## From left to right -/

section

variable {β : Type} {flat : α → List β} {mark : Operator → β}

/-- What held operands and their operators contribute, the earliest first. -/
def heldRow (flat : α → List β) (mark : Operator → β) : Held α → List β
  | [] => []
  | (left, op) :: held => heldRow flat mark held ++ (flat left ++ [mark op])

/-- What operators and their operands contribute. -/
def pairRow (flat : α → List β) (mark : Operator → β) (rest : List (Pair α)) : List β :=
  rest.flatMap fun p => mark p.1 :: flat p.2

theorem settle_row (hjoin : ∀ l o r, flat (join l o r) = flat l ++ mark o :: flat r)
    (next : Operator) : ∀ (held : Held α) (x : α),
    heldRow flat mark (settle join next held x).1 ++ flat (settle join next held x).2 =
      heldRow flat mark held ++ flat x := by
  intro held
  induction held with
  | nil => intro x; rfl
  | cons h held ih =>
      intro x
      obtain ⟨left, op⟩ := h
      rw [settle]
      split
      · rw [ih, hjoin]
        simp only [heldRow, List.append_assoc, List.singleton_append]
      · rfl

theorem drain_row (hjoin : ∀ l o r, flat (join l o r) = flat l ++ mark o :: flat r) :
    ∀ (held : Held α) (x : α),
      flat (drain join held x) = heldRow flat mark held ++ flat x := by
  intro held
  induction held with
  | nil => intro x; rfl
  | cons h held ih =>
      intro x
      obtain ⟨left, op⟩ := h
      rw [drain, ih, hjoin]
      simp only [heldRow, List.append_assoc, List.singleton_append]

theorem run_row (hjoin : ∀ l o r, flat (join l o r) = flat l ++ mark o :: flat r) :
    ∀ (rest : List (Pair α)) (held : Held α) (x : α), flat (run join held x rest) =
      heldRow flat mark held ++ (flat x ++ pairRow flat mark rest) := by
  intro rest
  induction rest with
  | nil =>
      intro held x
      rw [run, drain_row hjoin]
      simp only [pairRow, List.flatMap_nil, List.append_nil]
  | cons p rest ih =>
      intro held x
      obtain ⟨op, y⟩ := p
      have hmore : pairRow flat mark ((op, y) :: rest) =
          mark op :: (flat y ++ pairRow flat mark rest) := rfl
      calc flat (run join (((settle join op held x).2, op) :: (settle join op held x).1) y rest)
          = heldRow flat mark (settle join op held x).1 ++ (flat (settle join op held x).2 ++
              [mark op]) ++ (flat y ++ pairRow flat mark rest) := ih _ y
        _ = (heldRow flat mark (settle join op held x).1 ++ flat (settle join op held x).2) ++
              pairRow flat mark ((op, y) :: rest) := by
            simp only [hmore, List.append_assoc, List.singleton_append]
        _ = heldRow flat mark held ++ (flat x ++ pairRow flat mark ((op, y) :: rest)) := by
            rw [settle_row hjoin, List.append_assoc]

/-- **FROM LEFT TO RIGHT**: what a fold contributes is what its operands and operators do, in
    the order of the run, if a join contributes its left side, its operator and its right side. -/
theorem resolveBy_row (hjoin : ∀ l o r, flat (join l o r) = flat l ++ mark o :: flat r)
    (first : α) (rest : List (Pair α)) :
    flat (resolveBy join first rest) = flat first ++ pairRow flat mark rest :=
  run_row hjoin rest [] first

end

/-! ## Where a run comes apart -/

theorem run_cons (held : Held α) (x : α) (op : Operator) (y : α) (rest : List (Pair α)) :
    run join held x ((op, y) :: rest) =
      run join (((settle join op held x).2, op) :: (settle join op held x).1) y rest := rfl

/-- Before an operator all held operators bind before, everything held is joined. -/
theorem settle_all {next : Operator} : ∀ {held : Held α},
    (∀ h ∈ held, h.2.bindsBefore next = true) →
      ∀ x, settle join next held x = ([], drain join held x) := by
  intro held
  induction held with
  | nil => intro _ x; rfl
  | cons h held ih =>
      intro hall x
      obtain ⟨hh, hheld⟩ := List.forall_mem_cons.mp hall
      obtain ⟨left, op⟩ := h
      rw [settle, if_pos hh, ih hheld, drain]

/-- What is still held was held before. -/
theorem settle_subset {next : Operator} : ∀ (held : Held α) (x : α),
    (settle join next held x).1 ⊆ held := by
  intro held
  induction held with
  | nil => intro x; exact List.nil_subset _
  | cons h held ih =>
      intro x
      obtain ⟨left, op⟩ := h
      rw [settle]
      split
      · exact List.Subset.trans (ih _) (List.subset_cons_self ..)
      · exact fun _ h => h

/-- An operator that binds after everything on its left finds it joined. -/
theorem run_left {op : Operator} (y : α) (right : List (Pair α)) : ∀ (left : List (Pair α))
    (held : Held α) (x : α), (∀ h ∈ held, h.2.bindsBefore op = true) →
      (∀ p ∈ left, p.1.bindsBefore op = true) →
        run join held x (left ++ (op, y) :: right) =
          run join [(run join held x left, op)] y right := by
  intro left
  induction left with
  | nil =>
      intro held x hheld _
      rw [List.nil_append, run_cons, settle_all hheld]
      rfl
  | cons p left ih =>
      intro held x hheld hleft
      obtain ⟨hp, hmore⟩ := List.forall_mem_cons.mp hleft
      obtain ⟨op', z⟩ := p
      -- what is held now is the operator just read, or was held before
      refine ih (((settle join op' held x).2, op') :: (settle join op' held x).1) z ?_ hmore
      intro h hh
      rcases List.mem_cons.mp hh with rfl | hh
      · exact hp
      · exact hheld h (settle_subset held x hh)

theorem drain_last (l : α) (op : Operator) : ∀ (held : Held α) (x : α),
    drain join (held ++ [(l, op)]) x = join l op (drain join held x) := by
  intro held
  induction held with
  | nil => intro x; rfl
  | cons h held ih => intro x; exact ih _

theorem settle_last (l : α) {op next : Operator} (hop : op.bindsBefore next = false) :
    ∀ (held : Held α) (x : α), settle join next (held ++ [(l, op)]) x =
      ((settle join next held x).1 ++ [(l, op)], (settle join next held x).2) := by
  intro held
  induction held with
  | nil =>
      intro x
      show settle join next [(l, op)] x = ([(l, op)], x)
      rw [settle, hop]
      rfl
  | cons h held ih =>
      intro x
      obtain ⟨left, op'⟩ := h
      rw [List.cons_append, settle, settle]
      split
      · exact ih _
      · rfl

/-- An operator that does not bind before anything on its right waits for all of it. -/
theorem run_right (l : α) {op : Operator} : ∀ (right : List (Pair α)) (held : Held α) (x : α),
    (∀ p ∈ right, op.bindsBefore p.1 = false) →
      run join (held ++ [(l, op)]) x right = join l op (run join held x right) := by
  intro right
  induction right with
  | nil =>
      intro held x _
      exact drain_last l op held x
  | cons p right ih =>
      intro held x hright
      obtain ⟨hp, hmore⟩ := List.forall_mem_cons.mp hright
      obtain ⟨op', z⟩ := p
      rw [run_cons, run_cons, settle_last l hp]
      exact ih (((settle join op' held x).2, op') :: (settle join op' held x).1) z hmore

/-- **COMING APART**: the fold of a run joins the folds of its two sides at an operator that
    binds after everything on its left and not before anything on its right. -/
theorem resolveBy_split {op : Operator} {first second : α} {left right : List (Pair α)}
    (hleft : ∀ p ∈ left, p.1.bindsBefore op = true)
    (hright : ∀ p ∈ right, op.bindsBefore p.1 = false) :
    resolveBy join first (left ++ (op, second) :: right) =
      join (resolveBy join first left) op (resolveBy join second right) := by
  -- first the left side is folded, for nothing of it waits; then the right, behind the operator
  rw [resolveBy, run_left second right left [] first nofun hleft]
  exact run_right _ right [] second hright

end Fold

end BasicSyntax
