import BasicSyntax.Proofs.Fold
import Mathlib.Logic.Relation

/-! # Two stacks — folding a part of a run turn by turn

    The fold holds back each operand together with the operator after it.  A machine may as well
    keep them on two stacks, the operands on one and the operators on the other, and read the run
    by an index (`Stacks.turn`).  Nothing in its data says that the stacks fit one another, that a
    pair stands at the index, or that it comes to rest: a turn that finds a stack empty, or no
    pair to read, is a `fault`.

    There is none.  What a turn keeps is that the machine is `On` its way to a result: its stacks
    are the two halves of operands held back, of which there is one more, and folding on from
    them gives the result (`turn_on`).  Every turn leaves less to be done, so the machine comes to
    rest, and then nothing but the result is left (`reaches_rest`).

    Where the part of a run begins and ends inside the run, its fold is that result, and looks
    at nothing outside the part. -/

namespace BasicSyntax.Fold

variable {α : Type}

/-! ## The machine -/

/-- Operands and operators, each on a stack with the latest first, and the index at which the run
    is read next. -/
structure Stacks (α : Type) where
  index : Nat
  operands : List α
  operators : List Operator

/-- What a turn comes to: the machine goes on, or is at rest with what is on its operand stack,
    or has found a stack empty or nothing to read. -/
inductive Turn (α : Type)
  | next (m : Stacks α)
  | rest (operands : List α)
  | fault

namespace Stacks

/-- The machine in front of a part of a run, whose first operand it has read. -/
def start? (pairs : List (Pair α)) (index : Nat) : Option (Stacks α) :=
  pairs[index]?.map fun p => ⟨index + 1, [p.2], []⟩

/-- Push an operator and the operand behind it. -/
def push (m : Stacks α) (p : Pair α) : Stacks α :=
  ⟨m.index + 1, p.2 :: m.operands, p.1 :: m.operators⟩

/-- Pop two operands and an operator, and push what they join to. -/
def reduce (join : α → Operator → α → α) (m : Stacks α) : Turn α :=
  match m.operands, m.operators with
  | right :: left :: operands, op :: operators =>
    .next ⟨m.index, join left op right :: operands, operators⟩
  | _, _ => .fault

/-- One turn: an operator that binds before the next one is reduced, else the next pair is
    pushed; behind the last pair whatever operator is left is reduced. -/
def turn (join : α → Operator → α → α) (pairs : List (Pair α)) (stop : Nat) (m : Stacks α) :
    Turn α :=
  if m.index < stop then
    match pairs[m.index]?, m.operators with
    | none, _ => .fault
    | some p, [] => .next (m.push p)
    | some p, op :: _ => if op.bindsBefore p.1 then m.reduce join else .next (m.push p)
  else
    match m.operators with
    | [] => .rest m.operands
    | _ :: _ => m.reduce join

/-- One machine comes to be the other, turn by turn. -/
def Reaches (join : α → Operator → α → α) (pairs : List (Pair α)) (stop : Nat) :
    Stacks α → Stacks α → Prop :=
  Relation.ReflTransGen fun m m' => m.turn join pairs stop = .next m'

/-- The machine that has held back operands, each with the operator after it. -/
def ofHeld (index : Nat) (held : Held α) (latest : α) : Stacks α :=
  ⟨index, latest :: held.map Prod.fst, held.map Prod.snd⟩

/-- The machine is on its way to a result. -/
def On (join : α → Operator → α → α) (pairs : List (Pair α)) (stop : Nat) (result : α)
    (m : Stacks α) : Prop :=
  ∃ held latest, m = ofHeld m.index held latest ∧
    run join held latest ((pairs.take stop).drop m.index) = result

/-- How many turns are left at most: each pair is pushed once, and its operator reduced once. -/
def remaining (stop : Nat) (m : Stacks α) : Nat :=
  2 * (stop - m.index) + m.operators.length

/-! ## One turn -/

section

variable {join : α → Operator → α → α} {pairs : List (Pair α)} {stop : Nat} {result : α}
  {m : Stacks α}

/-- On its way, a machine has one operand more than operators. -/
theorem On.balanced (h : m.On join pairs stop result) :
    m.operands.length = m.operators.length + 1 := by
  obtain ⟨held, latest, hm, -⟩ := h
  rw [hm, ofHeld, List.length_cons, List.length_map, List.length_map]

/-- Inside a part of a run there is a pair at each index. -/
theorem part_cons (hstop : stop ≤ pairs.length) {i : Nat} (hi : i < stop) :
    ∃ p, pairs[i]? = some p ∧
      (pairs.take stop).drop i = p :: (pairs.take stop).drop (i + 1) := by
  have hlt : i < (pairs.take stop).length := by
    rw [List.length_take]
    omega
  refine ⟨pairs[i], List.getElem?_eq_getElem (by omega), ?_⟩
  rw [List.drop_eq_getElem_cons hlt, List.getElem_take]

/-- Held operands are reduced as they are joined. -/
theorem reduce_ofHeld (i : Nat) (left : α) (op : Operator) (held : Held α) (latest : α) :
    (ofHeld i ((left, op) :: held) latest).reduce join =
      .next (ofHeld i held (join left op latest)) := rfl

/-- **ONE TURN** of a machine that is on its way is no fault: it stays on its way and has less to
    do, or it is at rest with nothing but the result. -/
theorem turn_on (hstop : stop ≤ pairs.length) (h : m.On join pairs stop result) :
    (∃ m', m.turn join pairs stop = .next m' ∧ m'.On join pairs stop result ∧
      m'.remaining stop < m.remaining stop) ∨
    m.turn join pairs stop = .rest [result] := by
  obtain ⟨held, latest, hm, hrun⟩ := h
  generalize m.index = i at hm hrun
  subst hm
  by_cases hi : i < stop
  · obtain ⟨p, hp, hpart⟩ := part_cons hstop hi
    rw [hpart] at hrun
    have hpush : ∀ held' : Held α, run join ((latest, p.1) :: held') p.2
        ((pairs.take stop).drop (i + 1)) = result →
        ((ofHeld i held' latest).push p).On join pairs stop result ∧
          ((ofHeld i held' latest).push p).remaining stop <
            (ofHeld i held' latest).remaining stop := by
      intro held' hrun'
      refine ⟨⟨(latest, p.1) :: held', p.2, rfl, hrun'⟩, ?_⟩
      simp only [remaining, push, ofHeld, List.length_cons]
      omega
    cases held with
    | nil =>
        refine .inl ⟨_, ?_, hpush [] hrun⟩
        simp only [turn, ofHeld, if_pos hi, hp, List.map_nil]
    | cons h held =>
        obtain ⟨left, op⟩ := h
        by_cases hb : op.bindsBefore p.1 = true
        · -- the fold settles the same operator before it goes on with the same pair
          refine .inl ⟨ofHeld i held (join left op latest), ?_,
            ⟨held, join left op latest, rfl, ?_⟩, ?_⟩
          · simp only [turn, ofHeld, if_pos hi, hp, List.map_cons, if_pos hb]
            exact reduce_ofHeld i left op held latest
          · rw [run_cons, settle, if_pos hb] at hrun
            rw [show (ofHeld i held (join left op latest)).index = i from rfl, hpart]
            exact hrun
          · simp only [remaining, ofHeld, List.length_map, List.length_cons]
            omega
        · rw [run_cons, settle, if_neg hb] at hrun
          refine .inl ⟨_, ?_, hpush ((left, op) :: held) hrun⟩
          simp only [turn, ofHeld, if_pos hi, hp, List.map_cons, if_neg hb]
  · have hend : (pairs.take stop).drop i = [] :=
      List.drop_eq_nil_of_le (Nat.le_trans (List.length_take_le ..) (Nat.not_lt.mp hi))
    rw [hend] at hrun
    cases held with
    | nil =>
        refine .inr ?_
        simp only [turn, ofHeld, if_neg hi, List.map_nil]
        exact congrArg (fun a => Turn.rest [a]) hrun
    | cons h held =>
        obtain ⟨left, op⟩ := h
        refine .inl ⟨ofHeld i held (join left op latest), ?_,
          ⟨held, join left op latest, rfl, ?_⟩, ?_⟩
        · simp only [turn, ofHeld, if_neg hi, List.map_cons]
          exact reduce_ofHeld i left op held latest
        · rw [show (ofHeld i held (join left op latest)).index = i from rfl, hend]
          exact hrun
        · simp only [remaining, ofHeld, List.length_map, List.length_cons]
          omega

/-- It finds no stack empty, and there is a pair to read. -/
theorem turn_no_fault (hstop : stop ≤ pairs.length) (h : m.On join pairs stop result) :
    m.turn join pairs stop ≠ .fault := by
  intro hfault
  rcases turn_on hstop h with ⟨next, hnext, -⟩ | hrest
  · rw [hfault] at hnext
    cases hnext
  · rw [hfault] at hrest
    cases hrest

/-! ## All turns -/

/-- Whatever a machine that is on its way comes to be is on its way. -/
theorem Reaches.on (hstop : stop ≤ pairs.length) {m' : Stacks α}
    (hr : Reaches join pairs stop m m') (h : m.On join pairs stop result) :
    m'.On join pairs stop result := by
  induction hr with
  | refl => exact h
  | tail _ hturn ih =>
      rcases turn_on hstop ih with ⟨next, hnext, hon, -⟩ | hrest
      · rw [hturn] at hnext
        obtain rfl := Turn.next.inj hnext
        exact hon
      · rw [hturn] at hrest
        exact nomatch hrest

/-- **REST**: a machine that is on its way comes to rest with nothing but the result. -/
theorem reaches_rest (hstop : stop ≤ pairs.length) : ∀ (n : Nat) (m : Stacks α),
    m.remaining stop ≤ n → m.On join pairs stop result →
      ∃ last, Reaches join pairs stop m last ∧ last.turn join pairs stop = .rest [result] := by
  -- on the turns that are left, since a turn may leave the index where it is
  intro n
  induction n with
  | zero =>
      intro m hn h
      rcases turn_on hstop h with ⟨m', -, -, hless⟩ | hrest
      · omega
      · exact ⟨m, .refl, hrest⟩
  | succ n ih =>
      intro m hn h
      rcases turn_on hstop h with ⟨m', hturn, hon, hless⟩ | hrest
      · obtain ⟨last, hreach, hrest⟩ := ih m' (by omega) hon
        exact ⟨last, .head hturn hreach, hrest⟩
      · exact ⟨m, .refl, hrest⟩

end

end Stacks

/-! ## A part of a run -/

/-- A part of a run comes apart into the pair it begins with and those behind it. -/
theorem part_split {pairs : List (Pair α)} {start stop : Int}
    (h : 0 ≤ start ∧ start < stop ∧ stop ≤ pairs.length) :
    ∃ (before : List (Pair α)) (op : Operator) (first : α) (rest after : List (Pair α)),
      pairs = before ++ (op, first) :: (rest ++ after) ∧ start = before.length ∧
        stop = (before.length + 1 + rest.length : Nat) := by
  obtain ⟨i, rfl⟩ := Int.eq_ofNat_of_zero_le h.1
  obtain ⟨j, rfl⟩ := Int.eq_ofNat_of_zero_le (Int.le_trans h.1 (Int.le_of_lt h.2.1))
  have hij : i < j := Int.ofNat_lt.mp h.2.1
  have hj : j ≤ pairs.length := Int.ofNat_le.mp h.2.2
  obtain ⟨⟨op, first⟩, -, hpart⟩ := Stacks.part_cons hj hij
  refine ⟨(pairs.take j).take i, op, first, (pairs.take j).drop (i + 1), pairs.drop j, ?_, ?_, ?_⟩
  · rw [← List.cons_append, ← hpart, ← List.append_assoc, List.take_append_drop,
      List.take_append_drop]
  · rw [List.length_take, List.length_take]
    omega
  · rw [List.length_take, List.length_take, List.length_drop, List.length_take]
    omega

/-- What stands around a part of a run is not read. -/
theorem part_around (before : List (Pair α)) (op : Operator) (first : α)
    (rest after : List (Pair α)) :
    ((before ++ (op, first) :: (rest ++ after)).take (before.length + 1 + rest.length)).drop
      before.length = (op, first) :: rest := by
  have hfront : before ++ (op, first) :: (rest ++ after) =
      (before ++ (op, first) :: rest) ++ after := by
    rw [List.append_assoc, List.cons_append]
  have hlength : before.length + 1 + rest.length = (before ++ (op, first) :: rest).length := by
    rw [List.length_append, List.length_cons]
    omega
  rw [hfront, hlength, List.take_left, List.drop_left]

/-- The fold of a part of a run is that of its first operand and the pairs behind it. -/
theorem foldRange_around (join : α → Operator → α → α) (before : List (Pair α)) (op : Operator)
    (first : α) (rest after : List (Pair α)) :
    foldRange join (before ++ (op, first) :: (rest ++ after)) before.length
      (before.length + 1 + rest.length : Nat) = .ok (resolveBy join first rest) := by
  have hrange : (0 : Int) ≤ before.length ∧
      (before.length : Int) < (before.length + 1 + rest.length : Nat) ∧
      ((before.length + 1 + rest.length : Nat) : Int) ≤
        (before ++ (op, first) :: (rest ++ after)).length := by
    simp only [List.length_append, List.length_cons]
    omega
  rw [foldRange, if_pos hrange, Int.toNat_natCast, Int.toNat_natCast, part_around]
  rfl

/-- In front of a part nothing is held back, and all of the rest is still to be read. -/
theorem start_on (join : α → Operator → α → α) (before : List (Pair α)) (op : Operator)
    (first : α) (rest after : List (Pair α)) :
    ∃ begin,
      Stacks.start? (before ++ (op, first) :: (rest ++ after)) before.length = some begin ∧
        begin.On join (before ++ (op, first) :: (rest ++ after))
          (before.length + 1 + rest.length) (resolveBy join first rest) := by
  refine ⟨⟨before.length + 1, [first], []⟩, ?_, [], first, rfl, ?_⟩
  · rw [Stacks.start?, List.getElem?_append_right (Nat.le_refl _), Nat.sub_self]
    rfl
  · rw [← List.drop_drop, part_around]
    rfl

/-- **A PART OF A RUN** is folded exactly where it begins inside the run, is not empty and does
    not reach beyond the run; else the fault says which part of how long a run it was.  The fold
    is that of the first operand of the part and the pairs behind it, whatever the operator
    before that operand is and whatever stands around the part.  A machine with two stacks comes
    to the same: it has one operand more than operators before each turn, finds no stack empty,
    and rests with nothing but this fold. -/
theorem foldRange_part (join : α → Operator → α → α) (pairs : List (Pair α)) (start stop : Int) :
    (∀ fault, foldRange join pairs start stop = .error fault ↔
      fault = ⟨start, stop, pairs.length⟩ ∧
        ¬ (0 ≤ start ∧ start < stop ∧ stop ≤ pairs.length)) ∧
    (0 ≤ start ∧ start < stop ∧ stop ≤ pairs.length →
      ∃ (before : List (Pair α)) (op : Operator) (first : α) (rest after : List (Pair α)),
        pairs = before ++ (op, first) :: (rest ++ after) ∧ start = before.length ∧
          stop = (before.length + 1 + rest.length : Nat) ∧
        foldRange join pairs start stop = .ok (resolveBy join first rest) ∧
        (∀ (before' : List (Pair α)) (op' : Operator) (after' : List (Pair α)),
          before'.length = before.length →
            foldRange join (before' ++ (op', first) :: (rest ++ after')) start stop =
              .ok (resolveBy join first rest)) ∧
        ∃ begin, Stacks.start? pairs start.toNat = some begin ∧
          (∀ m, Stacks.Reaches join pairs stop.toNat begin m →
            m.operands.length = m.operators.length + 1 ∧
              m.turn join pairs stop.toNat ≠ .fault) ∧
          ∃ last, Stacks.Reaches join pairs stop.toNat begin last ∧
            last.turn join pairs stop.toNat = .rest [resolveBy join first rest]) := by
  refine ⟨fun fault => ?_, fun hrange => ?_⟩
  · by_cases hrange : 0 ≤ start ∧ start < stop ∧ stop ≤ pairs.length
    · obtain ⟨before, op, first, rest, after, rfl, rfl, rfl⟩ := part_split hrange
      rw [foldRange_around]
      exact iff_of_false nofun fun h => h.2 hrange
    · rw [foldRange, if_neg hrange]
      constructor
      · intro h
        exact ⟨(Except.error.inj h).symm, hrange⟩
      · rintro ⟨rfl, -⟩
        rfl
  · obtain ⟨before, op, first, rest, after, rfl, rfl, rfl⟩ := part_split hrange
    refine ⟨before, op, first, rest, after, rfl, rfl, rfl, foldRange_around .., ?_, ?_⟩
    · intro before' op' after' hlength
      rw [← hlength]
      exact foldRange_around ..
    · rw [Int.toNat_natCast, Int.toNat_natCast]
      have hstop := Int.ofNat_le.mp hrange.2.2
      obtain ⟨begin, hbegin, hon⟩ := start_on join before op first rest after
      refine ⟨begin, hbegin, fun m hm => ?_, Stacks.reaches_rest hstop _ _ (Nat.le_refl _) hon⟩
      have hm' := hm.on hstop hon
      exact ⟨hm'.balanced, Stacks.turn_no_fault hstop hm'⟩

/-- Of `9 * 8 - 2 - 1` the part behind the product is five, and the part that would begin one
    before the run is none. -/
theorem foldRange_part_difference :
    let join : Int → Operator → Int → Int := fun left op right =>
      if op.symbol = .minus then left - right else left * right
    let pairs : List (Pair Int) :=
      [(⟨.dummy, none⟩, 9), (⟨.times, none⟩, 8), (⟨.minus, none⟩, 2), (⟨.minus, none⟩, 1)]
    (0 ≤ (1 : Int) ∧ (1 : Int) < 4 ∧ (4 : Int) ≤ pairs.length) ∧
      foldRange join pairs 1 4 = .ok 5 ∧
      (∃ begin last, Stacks.start? pairs 1 = some begin ∧
        Stacks.Reaches join pairs 4 begin last ∧ last.turn join pairs 4 = .rest [5]) ∧
      foldRange join pairs (-1) 4 = .error ⟨-1, 4, 4⟩ := by
  intro join pairs
  have hrange : 0 ≤ (1 : Int) ∧ (1 : Int) < 4 ∧ (4 : Int) ≤ pairs.length := by decide
  obtain ⟨before, op, first, rest, after, -, -, -, hfold, -, begin, hbegin, -, last, hreach,
    hrest⟩ := (foldRange_part join pairs 1 4).2 hrange
  have hfive : foldRange join pairs 1 4 = .ok 5 := rfl
  rw [Except.ok.inj (hfold.symm.trans hfive)] at hrest
  refine ⟨hrange, hfive, ⟨begin, last, hbegin, hreach, hrest⟩, ?_⟩
  exact ((foldRange_part join pairs (-1) 4).1 _).mpr ⟨rfl, by decide⟩

end BasicSyntax.Fold
