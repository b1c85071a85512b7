import BasicSyntax.Node
import Mathlib.Data.List.Forall2

/-! # Relocating — the same tree with other points

    `Node.relocate f` puts `f` of its point in the place of every point in a tree, and leaves the
    rest of the tree as it is.  Lists of nodes, names and parameters are relocated one by one. -/

namespace BasicSyntax

/-- What is done to a point, whether it is known or not. -/
abbrev Relocation := Option Position → Option Position

/-- A name at another point. -/
def Binder.relocate (f : Relocation) (b : Binder) : Binder := ⟨b.text, f b.pos⟩

/-- An operator at another point. -/
def Operator.relocate (f : Relocation) (op : Operator) : Operator := ⟨op.symbol, f op.pos⟩

mutual

/-- A tree whose points are others. -/
def Node.relocate (f : Relocation) : Node → Node
  | .binder b => .binder (b.relocate f)
  | .unit pos => .unit (f pos)
  | .number value pos => .number value (f pos)
  | .string literal pos => .string literal (f pos)
  | .underline pos => .underline (f pos)
  | .function params body pos =>
    .function (relocateParams f params) (body.relocate f) (f pos)
  | .template params body pos =>
    .template (params.map (·.relocate f)) (body.relocate f) (f pos)
  | .operator op => .operator (op.relocate f)
  | .negative primary => .negative (primary.relocate f)
  | .binary left op right => .binary (left.relocate f) (op.relocate f) (right.relocate f)
  | .application child arguments =>
    .application (child.relocate f) (relocateAll f arguments)
  | .enclosed form stmts => .enclosed form (relocateAll f stmts)
  | .null => .null
  | .conditional condition thenBlock elseBlock =>
    .conditional (condition.relocate f) (thenBlock.relocate f) (relocateOption f elseBlock)
  | .loop condition body => .loop (condition.relocate f) (body.relocate f)
  | .binding form named params codes =>
    .binding form (named.relocate f) (params.map fun bs => bs.map (·.relocate f))
      (codes.relocate f)
  | .native tag params => .native tag (params.map (·.relocate f))
  | .datum value => .datum value
  | .tuple items => .tuple (relocateAll f items)

/-- A tree that may be missing, with other points. -/
def relocateOption (f : Relocation) : Option Node → Option Node
  | none => none
  | some n => some (n.relocate f)

/-- Trees with other points. -/
def relocateAll (f : Relocation) : List Node → List Node
  | [] => []
  | n :: rest => n.relocate f :: relocateAll f rest

/-- Parameters with other points, in their values too. -/
def relocateParams (f : Relocation) : List (Binder × Option Node) → List (Binder × Option Node)
  | [] => []
  | (b, value) :: rest => (b.relocate f, relocateOption f value) :: relocateParams f rest

end

theorem relocateAll_map (f : Relocation) (ns : List Node) :
    relocateAll f ns = ns.map (Node.relocate f) := by
  induction ns with
  | nil => rfl
  | cons n ns ih => exact congrArg (n.relocate f :: ·) ih

theorem relocateParams_names (f : Relocation) (bs : List Binder) :
    relocateParams f (bs.map fun b => (b, none)) =
      (bs.map (Binder.relocate f)).map fun b => (b, none) := by
  induction bs with
  | nil => rfl
  | cons b bs ih => exact congrArg ((b.relocate f, none) :: ·) ih

/-- Lists related as images are maps. -/
theorem forall₂_image {α β : Type} {f : α → β} {xs : List α} {ys : List β} :
    List.Forall₂ (fun x y => y = f x) xs ys ↔ ys = xs.map f := by
  constructor
  · intro h
    induction h with
    | nil => rfl
    | cons hx _ ih => rw [hx, ih, List.map_cons]
  · rintro rfl
    exact List.forall₂_map_right_iff.mpr (List.forall₂_same.mpr fun _ _ => rfl)

end BasicSyntax
