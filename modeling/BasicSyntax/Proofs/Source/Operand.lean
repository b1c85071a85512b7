import BasicSyntax.Proofs.Fold.Loosest
import BasicSyntax.Proofs.RoundTrip

/-! # Bare operands — what is written if an operand loses its brackets

    An operand that is itself two operands joined stands in brackets where its operator binds
    looser than the one beside it (`Side.loosens`).  Take the brackets away: the text is still
    the source form of a tree, though of another one.  The operator on the outside now takes
    only the nearest part of the operand, and the rest of the operand takes the result
    (`Side.spliced`).

    `yields_spliced` says that the tree so made is written as the operand, bare, then the
    operator and the other operand.  The recursion goes down the side of the operand that faces
    the operator, and ends where a part stands in brackets of its own or binds tighter.

    Left and right differ in nothing but order, so everything is said of a side. -/

namespace BasicSyntax

open Printing Node

/-- The two sides of an operator. -/
inductive Side
  | left
  | right
  deriving DecidableEq, Repr

namespace Side

/-- The other side. -/
def opposite : Side → Side
  | left => right
  | right => left

/-- Join an operand on a side of an operator with the one on the other side. -/
def join (side : Side) (op : Operator) (n other : Node) : Node :=
  match side with
  | left => .binary n op other
  | right => .binary other op n

/-- Of the operands of a node on a side of an operator, the one beside that operator. -/
def near (side : Side) (l r : Node) : Node :=
  match side with
  | left => r
  | right => l

/-- Of the operands of a node on a side of an operator, the one away from that operator. -/
def far (side : Side) (l r : Node) : Node :=
  match side with
  | left => l
  | right => r

/-- Whether an operand on a side of an operator would be regrouped without brackets. -/
def regroups (side : Side) (op : Operator) (n : Node) : Bool :=
  match side with
  | left => n.regroupsLeft op
  | right => n.regroupsRight op

/-- Whether an operand on a side of an operator stands in brackets. -/
def wraps (side : Side) (op : Operator) (n : Node) : Bool :=
  n.isFunction || side.regroups op n

/-- Texts of two operands with an operator between them, the first on a side of it. -/
def line (side : Side) (op : Operator) (x y : String) : String :=
  match side with
  | left => x ++ " " ++ op.symbol.text ++ " " ++ y
  | right => y ++ " " ++ op.symbol.text ++ " " ++ x

/-- Whether an operator on a side of another joins its operands after it. -/
def loosens (side : Side) (op inner : Operator) : Bool :=
  match side with
  | left => !inner.bindsBefore op
  | right => op.bindsBefore inner

variable {side : Side} {op inner outer : Operator} {l r n m : Node}

/-! ## Which operators need brackets -/

/-- **BRACKETS** stand around joined operands whose operator binds looser than the one beside
    them. -/
theorem regroups_binary : side.regroups op (.binary l inner r) = side.loosens op inner := by
  cases side with
  | left => exact regroupsLeft_binary l r
  | right => exact regroupsRight_binary l r

/-- Only joined operands can be regrouped. -/
theorem regroups_iff : side.regroups op n = true ↔
    ∃ l inner r, n = .binary l inner r ∧ side.loosens op inner = true := by
  constructor
  · intro h
    cases n with
    | binary l inner r => exact ⟨l, inner, r, rfl, regroups_binary ▸ h⟩
    | _ => cases side <;> exact nomatch h
  · rintro ⟨l, inner, r, rfl, h⟩
    rw [regroups_binary]
    exact h

/-- Of two operators side by side, one binds looser. -/
theorem loosens_opposite : side.opposite.loosens inner op = !side.loosens op inner := by
  cases side with
  | left => exact (Bool.not_not _).symm
  | right => rfl

theorem loosens_priority (h : side.loosens op inner = true) :
    inner.symbol.priority ≤ op.symbol.priority := by
  cases side with
  | left => exact Operator.priority_of_not_binds ((Bool.not_eq_true' _).mp h)
  | right => exact Operator.priority_of_binds h

/-- Looser operators need brackets where tighter ones do. -/
theorem loosens_mono (h : side.loosens op inner = true)
    (hle : outer.symbol.priority ≤ inner.symbol.priority) : side.loosens op outer = true := by
  cases side with
  | left =>
      have hinner : inner.bindsBefore op = false := (Bool.not_eq_true' _).mp h
      refine (Bool.not_eq_true' _).mpr (Bool.eq_false_iff.mpr fun hb => ?_)
      exact Bool.eq_false_iff.mp hinner (Operator.bindsBefore_tighter hb hle)
  | right => exact Operator.bindsBefore_looser h hle

/-- What binds looser than an operator that binds looser binds looser. -/
theorem loosens_trans (h : side.loosens op inner = true)
    (h' : side.opposite.loosens inner outer = true) : side.loosens op outer = true :=
  loosens_mono h (loosens_priority h')

/-! ## The text of two joined operands -/

/-- A binary node is its near operand joined with its far one. -/
theorem join_near (side : Side) :
    side.opposite.join op (side.near l r) (side.far l r) = .binary l op r := by
  cases side <;> rfl

theorem regroups_join (side' : Side) :
    side.regroups op (side'.join inner n m) = side.loosens op inner := by
  cases side' <;> exact regroups_binary

/-- What stands in brackets beside an operator does so beside a looser one that takes its
    place. -/
theorem wraps_trans (h : side.loosens op inner = true)
    (hw : side.opposite.wraps inner n = true) : side.wraps op n = true := by
  rcases Bool.or_eq_true_iff.mp hw with hf | hr
  · exact Bool.or_eq_true_iff.mpr (.inl hf)
  · obtain ⟨l, root, r, rfl, hroot⟩ := regroups_iff.mp hr
    exact Bool.or_eq_true_iff.mpr (.inr (regroups_iff.mpr
      ⟨l, root, r, rfl, loosens_trans h hroot⟩))

theorem isFunction_join : (side.join op n m).isFunction = false := by
  cases side <;> rfl

theorem wraps_join (side' : Side) :
    side.wraps op (side'.join inner n m) = side.loosens op inner := by
  rw [wraps, isFunction_join, regroups_join, Bool.false_or]

theorem join_operands (h : (side.join op n m).IsExpr) :
    n.IsExpr ∧ op.symbol ≠ .dummy ∧ m.IsExpr := by
  cases side with
  | left =>
      cases h with
      | binary hn hop hm => exact ⟨hn, hop, hm⟩
  | right =>
      cases h with
      | binary hm hop hn => exact ⟨hn, hop, hm⟩

theorem join_expr (hn : n.IsExpr) (hop : op.symbol ≠ .dummy) (hm : m.IsExpr) :
    (side.join op n m).IsExpr := by
  cases side with
  | left => exact .binary hn hop hm
  | right => exact .binary hm hop hn

/-- Two lines in one: it does not matter which operator is written first. -/
theorem line_line (x y z : String) :
    side.opposite.line inner (side.line op x y) z =
      side.line op (side.opposite.line inner x z) y := by
  cases side with
  | left => simp only [opposite, line, String.append_assoc]
  | right => simp only [opposite, line, String.append_assoc]

/-- What stands on either side of an operand in a line. -/
theorem line_around (side : Side) (op : Operator) (y : String) :
    ∃ front back, ∀ x, side.line op x y = front ++ x ++ back := by
  cases side with
  | left =>
      refine ⟨"", " " ++ op.symbol.text ++ " " ++ y, fun x => ?_⟩
      simp only [line, String.empty_append, String.append_assoc]
  | right =>
      refine ⟨y ++ " " ++ op.symbol.text ++ " ", "", fun x => ?_⟩
      simp only [line, String.append_empty]

/-- Joined operands are written in a line, each in brackets where it needs them. -/
theorem yields_join {indent x y : String} {level : Nat} (side : Side) (op : Operator)
    (hx : Yields (print indent n) level x) (hy : Yields (print indent m) level y) :
    Yields (print indent (side.join op n m)) level
      (side.line op (bracketed (side.wraps op n) x) (bracketed (side.opposite.wraps op m) y)) := by
  cases side with
  | left => exact yields_binary op hx hy
  | right => exact yields_binary op hy hx

/-! ## Splicing -/

/-- The tree of an operand without brackets on a side of an operator, with the other operand on
    the other side. -/
def spliced (side : Side) (op : Operator) (other : Node) : Node → Node
  | .binary l inner r =>
    if side.loosens op inner then
      side.opposite.join inner
        (if side.opposite.wraps inner (side.near l r) then side.join op (side.near l r) other
          else spliced side op other (side.near l r))
        (side.far l r)
    else side.join op (.binary l inner r) other
  | n => side.join op n other
termination_by n => sizeOf n
decreasing_by cases side <;> simp +arith [near]

/-- An operand that is not regrouped is joined as it is. -/
theorem spliced_plain (h : side.regroups op n = false) :
    side.spliced op m n = side.join op n m := by
  cases n with
  | binary l inner r =>
      rw [regroups_binary] at h
      rw [spliced, if_neg (Bool.eq_false_iff.mp h)]
  | _ =>
      rw [spliced]
      exact nofun

/-- The outermost operator is that of the operand or the one beside it, whichever is looser. -/
theorem spliced_root (side : Side) (op : Operator) (m n : Node) :
    ∃ l root r, side.spliced op m n = .binary l root r ∧
      root.symbol.priority ≤ op.symbol.priority ∧
        (root = op ∨ ∃ l' r', n = .binary l' root r') := by
  cases hreg : side.regroups op n with
  | true =>
      obtain ⟨l, inner, r, rfl, hloose⟩ := regroups_iff.mp hreg
      rw [spliced, if_pos hloose]
      cases side with
      | left => exact ⟨_, inner, _, rfl, loosens_priority hloose, .inr ⟨l, r, rfl⟩⟩
      | right => exact ⟨_, inner, _, rfl, loosens_priority hloose, .inr ⟨l, r, rfl⟩⟩
  | false =>
      rw [spliced_plain hreg]
      cases side with
      | left => exact ⟨_, op, _, rfl, Int.le_refl _, .inl rfl⟩
      | right => exact ⟨_, op, _, rfl, Int.le_refl _, .inl rfl⟩

/-- Beside an operator that binds looser, what is spliced stands in no brackets if the operand
    does not. -/
theorem spliced_wraps (h : side.loosens op inner = true)
    (hw : side.opposite.wraps inner n = false) :
    side.opposite.wraps inner (side.spliced op m n) = false := by
  obtain ⟨l, root, r, heq, -, hroot⟩ := spliced_root side op m n
  rw [heq, wraps, regroups_binary]
  rcases hroot with rfl | ⟨l', r', rfl⟩
  · rw [loosens_opposite, h]
    rfl
  · rw [wraps, regroups_binary] at hw
    exact hw

/-- Induction down the side of an operand that faces an operator, as far as it is spliced. -/
theorem spliced_induction {motive : Node → Prop} (side : Side) (op : Operator)
    (joined : ∀ l inner r, side.loosens op inner = true →
      (side.opposite.wraps inner (side.near l r) = false → motive (side.near l r)) →
        motive (.binary l inner r))
    (plain : ∀ n, side.regroups op n = false → motive n) : ∀ n, motive n := by
  intro n
  induction n using spliced.induct side op with
  | case1 l inner r hloose ih =>
      exact joined l inner r hloose fun hw => ih (Bool.eq_false_iff.mp hw)
  | case2 l inner r hloose =>
      exact plain _ (regroups_binary.trans (Bool.eq_false_iff.mpr hloose))
  | case3 n hatom =>
      refine plain n (Bool.eq_false_iff.mpr fun h => ?_)
      obtain ⟨l, inner, r, heq, -⟩ := regroups_iff.mp h
      exact hatom l inner r heq

/-- What is spliced is an expression if the operands are. -/
theorem spliced_expr (hop : op.symbol ≠ .dummy) (hm : m.IsExpr) (hn : n.IsExpr) :
    (side.spliced op m n).IsExpr := by
  induction n using spliced_induction side op with
  | joined l inner r hloose ih =>
      rw [← join_near side] at hn
      obtain ⟨hnear, hinner, hfar⟩ := join_operands hn
      rw [spliced, if_pos hloose]
      refine join_expr ?_ hinner hfar
      cases hw : side.opposite.wraps inner (side.near l r) with
      | true => exact join_expr hnear hop hm
      | false => exact ih hw hnear
  | plain n hreg =>
      rw [spliced_plain hreg]
      exact join_expr hn hop hm

/-- **BARE OPERANDS**: the tree of an operand without brackets is written as the operand, the
    operator and the other operand. -/
theorem yields_spliced {indent x y : String} {level : Nat}
    (hindent : ∀ c ∈ indent.toList, Text.isFiller c = true) (hn : n.IsExpr)
    (hf : n.isFunction = false) (hx : Yields (print indent n) level x)
    (hy : Yields (print indent m) level y) :
    Yields (print indent (side.spliced op m n)) level
      (side.line op x (bracketed (side.opposite.wraps op m) y)) := by
  induction n using spliced_induction side op generalizing x with
  | joined l inner r hloose ih =>
      rw [← join_near side] at hn hx
      obtain ⟨hnear, -, hfar⟩ := join_operands hn
      obtain ⟨nearText, hnt, -⟩ := hnear.printed hindent level
      obtain ⟨farText, hft, -⟩ := hfar.printed hindent level
      obtain rfl := hx.unique (yields_join _ inner hnt hft)
      rw [spliced, if_pos hloose, ← line_line]
      cases hw : side.opposite.wraps inner (side.near l r) with
      | true =>
          -- a part in brackets of its own keeps them beside the new operator
          have hinside := yields_join side op hnt hy
          rw [wraps_trans hloose hw] at hinside
          have houtside := yields_join side.opposite inner hinside hft
          rw [wraps_join, loosens_opposite, hloose] at houtside
          exact houtside
      | false =>
          have hnf : (side.near l r).isFunction = false := (Bool.or_eq_false_iff.mp hw).1
          have houtside := yields_join side.opposite inner (ih hw hnear hnf hnt) hft
          rw [spliced_wraps hloose hw] at houtside
          exact houtside
  | plain n hreg =>
      have hplain : side.wraps op n = false := by rw [wraps, hf, hreg, Bool.false_or]
      have hline := yields_join side op hx hy
      rw [hplain] at hline
      rw [spliced_plain hreg]
      exact hline

end Side

end BasicSyntax
