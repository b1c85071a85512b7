import BasicSyntax.Proofs.Fold

/-! # The loosest operator — folding a run by taking it apart

    The fold reads a run once and holds back what it cannot join yet.  This is what it amounts
    to: `grouped` looks for the loosest operator of the run, groups what stands on either side
    of it, and joins the two.  Of operators that are equally loose it takes the last one, unless
    they group to the right: then it takes the first.

    `resolve_grouped` says that the two are the same for every run.  The loosest operator is
    found by a scan (`loosest`), and what the scan keeps is that everything on the left of the
    operator it has chosen binds before it, and the operator before nothing on its right
    (`Parting.Loosest`).  So no operator has a lower priority, and at the one that is chosen the
    fold of the run comes apart (`resolveBy_loosest`). -/

namespace BasicSyntax

/-! ## Taking a run apart -/

/-- A run taken apart at one of its operators. -/
structure Parting (α : Type) where
  left : List (Pair α)
  op : Operator
  second : α
  right : List (Pair α)

namespace Parting

variable {α : Type}

/-- The run that was taken apart. -/
def whole (c : Parting α) : List (Pair α) := c.left ++ (c.op, c.second) :: c.right

/-- Go on to the next operator: it is chosen if it has a lower priority than the one chosen so
    far, or the same and groups to the left. -/
def pass (c : Parting α) (p : Pair α) : Parting α :=
  if p.1.symbol.priority < c.op.symbol.priority ∨
      p.1.symbol.priority = c.op.symbol.priority ∧ p.1.symbol.leftAssoc = true then
    ⟨c.whole, p.1, p.2, []⟩
  else { c with right := c.right ++ [p] }

/-- Everything on the left binds before the operator, and the operator before nothing on the
    right. -/
structure Loosest (c : Parting α) : Prop where
  left : ∀ p ∈ c.left, p.1.bindsBefore c.op = true
  right : ∀ p ∈ c.right, c.op.bindsBefore p.1 = false

variable {c : Parting α} {p : Pair α}

theorem pass_chosen (h : c.op.bindsBefore p.1 = true) :
    c.pass p = ⟨c.whole, p.1, p.2, []⟩ := by
  rw [Operator.bindsBefore_iff] at h
  exact if_pos (h.imp_right fun h => ⟨h.1.symm, h.2⟩)

theorem pass_passed (h : c.op.bindsBefore p.1 = false) :
    c.pass p = { c with right := c.right ++ [p] } := by
  rw [← Bool.not_eq_true, Operator.bindsBefore_iff] at h
  exact if_neg fun h' => h (h'.imp_right fun h => ⟨h.1.symm, h.2⟩)

theorem pass_whole (c : Parting α) (p : Pair α) : (c.pass p).whole = c.whole ++ [p] := by
  cases h : c.op.bindsBefore p.1 with
  | true =>
      rw [pass_chosen h]
      rfl
  | false =>
      rw [pass_passed h, whole, whole, List.append_assoc]
      rfl

/-- One step of the scan keeps the operator the loosest of what has been scanned. -/
theorem Loosest.pass (h : c.Loosest) (p : Pair α) : (c.pass p).Loosest := by
  cases hp : c.op.bindsBefore p.1 with
  | true =>
      -- what was on either side of the former operator is now on the left, with it
      rw [pass_chosen hp]
      refine ⟨List.forall_mem_append.mpr ⟨?_, List.forall_mem_cons.mpr ⟨hp, ?_⟩⟩, nofun⟩
      · intro q hq
        exact Operator.bindsBefore_trans (h.left q hq) hp
      · intro q hq
        exact Operator.bindsBefore_of_not (h.right q hq) hp
  | false =>
      rw [pass_passed hp]
      exact ⟨h.left, List.forall_mem_append.mpr ⟨h.right, List.forall_mem_singleton.mpr hp⟩⟩

/-- No operator of the run has a lower priority. -/
theorem Loosest.priority (h : c.Loosest) :
    ∀ p ∈ c.whole, c.op.symbol.priority ≤ p.1.symbol.priority := by
  refine List.forall_mem_append.mpr ⟨?_, List.forall_mem_cons.mpr ⟨Int.le_refl _, ?_⟩⟩
  · intro p hp
    exact Operator.priority_of_binds (h.left p hp)
  · intro p hp
    exact Operator.priority_of_not_binds (h.right p hp)

end Parting

variable {α : Type}

/-- A run taken apart at its first operator. -/
def Parting.start (op : Operator) (second : α) : Parting α := ⟨[], op, second, []⟩

/-- Take a run apart at its loosest operator, scanning it from left to right. -/
def loosest (op : Operator) (second : α) (rest : List (Pair α)) : Parting α :=
  rest.foldl Parting.pass (Parting.start op second)

theorem Parting.start_loosest (op : Operator) (second : α) :
    (Parting.start op second).Loosest := by
  constructor
  · intro p hp
    exact nomatch hp
  · intro p hp
    exact nomatch hp

/-- What a scan takes apart is what it has scanned, and the operator it chooses is the loosest
    of that. -/
theorem scan_loosest : ∀ (rest : List (Pair α)) {c : Parting α}, c.Loosest →
    (rest.foldl Parting.pass c).whole = c.whole ++ rest ∧
      (rest.foldl Parting.pass c).Loosest := by
  intro rest
  induction rest with
  | nil =>
      intro c h
      exact ⟨(List.append_nil _).symm, h⟩
  | cons p rest ih =>
      intro c h
      obtain ⟨hwhole, hloosest⟩ := ih (h.pass p)
      refine ⟨?_, hloosest⟩
      rw [List.foldl_cons, hwhole, Parting.pass_whole, List.append_assoc]
      rfl

theorem loosest_whole (op : Operator) (second : α) (rest : List (Pair α)) :
    (loosest op second rest).whole = (op, second) :: rest :=
  (scan_loosest rest (Parting.start_loosest op second)).1

theorem loosest_loosest (op : Operator) (second : α) (rest : List (Pair α)) :
    (loosest op second rest).Loosest :=
  (scan_loosest rest (Parting.start_loosest op second)).2

/-- Both sides of the loosest operator are shorter than the run. -/
theorem loosest_shorter (op : Operator) (second : α) (rest : List (Pair α)) :
    (loosest op second rest).left.length < rest.length + 1 ∧
      (loosest op second rest).right.length < rest.length + 1 := by
  have h := congrArg List.length (loosest_whole op second rest)
  rw [Parting.whole, List.length_append, List.length_cons, List.length_cons] at h
  omega

/-- Group a run: what stands on the left of its loosest operator, that operator, and what stands
    on its right. -/
def grouped (join : α → Operator → α → α) (first : α) : List (Pair α) → α
  | [] => first
  | (op, second) :: rest =>
    let c := loosest op second rest
    join (grouped join first c.left) c.op (grouped join c.second c.right)
termination_by rest => rest.length
decreasing_by
  · exact (loosest_shorter op second rest).1
  · exact (loosest_shorter op second rest).2

/-! ## The fold -/

variable {join : α → Operator → α → α}

/-- The fold of a run comes apart at its loosest operator. -/
theorem resolveBy_loosest (first : α) (op : Operator) (second : α) (rest : List (Pair α)) :
    resolveBy join first ((op, second) :: rest) =
      join (resolveBy join first (loosest op second rest).left) (loosest op second rest).op
        (resolveBy join (loosest op second rest).second (loosest op second rest).right) := by
  have h := loosest_loosest op second rest
  calc resolveBy join first ((op, second) :: rest)
      = resolveBy join first (loosest op second rest).whole := by rw [loosest_whole]
    _ = _ := Fold.resolveBy_split h.left h.right

theorem resolveBy_grouped (first : α) (rest : List (Pair α)) :
    resolveBy join first rest = grouped join first rest := by
  -- on the run as it is taken apart
  induction first, rest using grouped.induct with
  | case1 first =>
      rw [grouped]
      rfl
  | case2 first op second rest c ihl ihr =>
      rw [resolveBy_loosest, grouped, ihl, ihr]

/-- **GROUPING**: the fold of a run is the run taken apart at its loosest operators, whatever
    the operands are and however they are joined; so it is for nodes.  Where a run is taken
    apart nothing of it is lost, and no operator of it has a lower priority. -/
theorem resolve_grouped :
    (∀ (first : Node) (rest : List (Pair Node)),
      resolve first rest = grouped .binary first rest) ∧
    (∀ {α : Type} (join : α → Operator → α → α) (first : α) (rest : List (Pair α)),
      resolveBy join first rest = grouped join first rest) ∧
    ∀ {α : Type} (op : Operator) (second : α) (rest : List (Pair α)),
      (loosest op second rest).whole = (op, second) :: rest ∧
        ∀ p ∈ (op, second) :: rest,
          (loosest op second rest).op.symbol.priority ≤ p.1.symbol.priority := by
  refine ⟨fun first rest => resolveBy_grouped first rest,
    fun _ first rest => resolveBy_grouped first rest, fun op second rest => ?_⟩
  have hwhole := loosest_whole op second rest
  have hlowest := (loosest_loosest op second rest).priority
  rw [hwhole] at hlowest
  exact ⟨hwhole, hlowest⟩

/-- In `_ * 1 - 2` the operator that is chosen has no higher priority than the product's. -/
theorem resolve_grouped_difference :
    ((⟨.times, none⟩, 1) : Pair Nat) ∈ [((⟨.times, none⟩, 1) : Pair Nat), (⟨.minus, none⟩, 2)] ∧
      (loosest ⟨.times, none⟩ 1 [((⟨.minus, none⟩, 2) : Pair Nat)]).op.symbol.priority ≤
        Symbol.times.priority := by
  have h : ((⟨.times, none⟩, 1) : Pair Nat) ∈
      [((⟨.times, none⟩, 1) : Pair Nat), (⟨.minus, none⟩, 2)] := List.mem_cons_self ..
  exact ⟨h, (resolve_grouped.2.2 ⟨.times, none⟩ 1 [(⟨.minus, none⟩, 2)]).2 _ h⟩

end BasicSyntax
