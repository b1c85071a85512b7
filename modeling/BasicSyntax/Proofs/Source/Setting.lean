import BasicSyntax.Proofs.Source.Frame

/-! # Settings — a tree around one of its parts

    A setting is frames one around the other, the innermost first: a tree without one of its
    parts, however deep the part stands.

    A part may give way to another that has the brackets it has (`Frame.refill`).  A joined
    operand may also give way to one with a looser operator: where the first has no brackets and
    the second would need them, the second is spliced into the node around it instead
    (`Frame.splice`).  Either way the text of the one gives way to that of the other, and what
    becomes of the frame is again something that may stand where the frame did
    (`Frame.replace`).  By induction on the setting this goes on up to the root of the tree
    (`Setting.replace`). -/

namespace BasicSyntax

open Printing

/-! ## Parts that give way to others -/

namespace Node

/-- Nodes have the same brackets everywhere but beside an operator. -/
structure Akin (m n : Node) : Prop where
  isNull : m.isNull = n.isNull
  isFunction : m.isFunction = n.isFunction
  isPlainPrimary : m.isPlainPrimary = n.isPlainPrimary
  isPlainArgument : m.isPlainArgument = n.isPlainArgument
  isPlainCondition : m.isPlainCondition = n.isPlainCondition

/-- Nodes have the same brackets everywhere. -/
structure Alike (m n : Node) : Prop extends Akin m n where
  regroups : ∀ (side : Side) (op : Operator), side.regroups op m = side.regroups op n

/-- A node may stand where another does, with the brackets of the other, or with brackets that
    the other does not need. -/
structure Replaces (m n : Node) : Prop extends Akin m n where
  fits : ∀ r : Role, r.Fits n → r.Fits m
  regroups : ∀ (side : Side) (op : Operator), side.regroups op n = true →
    side.regroups op m = true

/-- Joined operands may give way to others that are joined by an operator that is not tighter. -/
theorem replaces_binary {l r l' r' : Node} {op op' : Operator}
    (h : (binary l' op' r').IsExpr) (hle : op'.symbol.priority ≤ op.symbol.priority) :
    (binary l' op' r').Replaces (binary l op r) := by
  refine ⟨⟨rfl, rfl, rfl, rfl, rfl⟩, fun role _ => h.fits role, fun side outer hreg => ?_⟩
  rw [Side.regroups_binary] at hreg ⊢
  exact Side.loosens_mono hreg hle

theorem isNull_fits {n : Node} {r : Role} (h : r.Fits n) : n.isNull = false := by
  have hexpr : n.IsExpr → n.isNull = false := fun h => isNull_stmt (.cluster (.expr h))
  cases r with
  | expr => exact hexpr h
  | argument =>
      cases h with
      | expr h => exact hexpr h
      | _ => rfl
  | cluster => exact isNull_stmt (.cluster h)
  | statement => exact isNull_stmt h

end Node

/-- Where the text of one part of a whole gives way to that of another, the whole becomes
    another tree: what stands around the part is the same in both, and is the same for every
    part with the same brackets. -/
def Exchanges (indent : String) (whole : Node → Node) (inner outer : Nat) (n m t : Node) : Prop :=
  ∃ front back,
    (∀ k text, k.Alike n → Yields (Node.print indent k) inner text →
      Yields (Node.print indent (whole k)) outer (front ++ text ++ back)) ∧
    ∀ text, Yields (Node.print indent m) inner text →
      Yields (Node.print indent t) outer (front ++ text ++ back)

namespace Frame

variable {f : Frame} {n m : Node} {r : Role} {indent : String}

theorem fill_akin (f : Frame) (m n : Node) : (f.fill m).Akin (f.fill n) := by
  cases f with
  | operand side op other => cases side <;> exact ⟨rfl, rfl, rfl, rfl, rfl⟩
  | _ => exact ⟨rfl, rfl, rfl, rfl, rfl⟩

/-- A frame has the same brackets around it whatever its part is. -/
theorem fill_alike (f : Frame) (m n : Node) : (f.fill m).Alike (f.fill n) := by
  refine ⟨f.fill_akin m n, fun side op => ?_⟩
  cases f with
  | operand side' op' other =>
      exact (Side.regroups_join side').trans (Side.regroups_join side').symm
  | _ => cases side <;> rfl

/-- Outside of an operand, brackets do not depend on operators. -/
theorem wraps_akin (h : m.Akin n) (hf : ∀ side op other, f ≠ operand side op other) :
    f.wraps m = f.wraps n := by
  cases f with
  | operand side op other => exact absurd rfl (hf side op other)
  | negative => exact congrArg (!·) h.isPlainPrimary
  | argument _ _ _ => exact congrArg (!·) h.isPlainArgument
  | condition _ _ => exact congrArg (!·) h.isPlainCondition
  | loopCondition _ => exact congrArg (!·) h.isPlainCondition
  | _ => rfl

theorem wraps_alike (h : m.Alike n) : f.wraps m = f.wraps n := by
  cases f with
  | operand side op other =>
      show (_ || _) = (_ || _)
      rw [h.isFunction, h.regroups]
  | _ => exact wraps_akin h.toAkin nofun

/-- Brackets stand on either side of a text, if they are wanted. -/
theorem bracketed_around (wanted : Bool) :
    ∃ front back, ∀ text, bracketed wanted text = front ++ text ++ back := by
  cases wanted with
  | true => exact ⟨"(", ")", fun _ => rfl⟩
  | false =>
      refine ⟨"", "", fun text => ?_⟩
      rw [String.empty_append, String.append_empty]
      rfl

/-- A part gives way to another that has the brackets it has. -/
theorem refill (hindent : ∀ c ∈ indent.toList, Text.isFiller c = true) (h : m.Replaces n)
    (hw : f.wraps m = f.wraps n) (hfits : r.Fits (f.fill n)) :
    (f.fill m).Replaces (f.fill n) ∧
      ∀ level, Exchanges indent f.fill (level + f.depth) level n m (f.fill m) := by
  obtain ⟨hsound, hn, -⟩ := fits hfits
  have hnull : n.isNull = false := Node.isNull_fits hn
  constructor
  · refine ⟨f.fill_akin m n, fun role hrole => ?_, fun side op hreg => ?_⟩
    · obtain ⟨-, hpart, hrefit⟩ := fits hrole
      exact hrefit m (h.fits f.role hpart)
    · rw [(f.fill_alike m n).regroups]
      exact hreg
  · intro level
    obtain ⟨front, back, htext⟩ := yields hindent hsound level
    obtain ⟨opening, closing, hbrackets⟩ := bracketed_around (f.wraps n)
    have hsame : ∀ k text, k.isNull = false → f.wraps k = f.wraps n →
        Yields (Node.print indent k) (level + f.depth) text →
          Yields (Node.print indent (f.fill k)) level
            ((front ++ opening) ++ text ++ (closing ++ back)) := by
      intro k text hk hkw hp
      have hwhole := htext k text hk hp
      rw [hkw, hbrackets] at hwhole
      simp only [String.append_assoc] at hwhole ⊢
      exact hwhole
    refine ⟨front ++ opening, closing ++ back, fun k text hk hp => ?_, fun text hp => ?_⟩
    · exact hsame k text (hk.isNull.trans hnull) (wraps_alike hk) hp
    · exact hsame m text (h.isNull.trans hnull) hw hp

/-- Beside an operator an operand gives way to any other without its brackets, which is
    spliced. -/
theorem splice (hindent : ∀ c ∈ indent.toList, Text.isFiller c = true) (side : Side)
    {op : Operator} {other : Node} (hm : m.IsExpr) (hf : m.isFunction = false)
    (hop : op.symbol ≠ .dummy) (hother : other.IsExpr) :
    (side.spliced op other m).Replaces (side.join op n other) ∧
      ∀ level, ∃ front back,
        (∀ k text, Yields (Node.print indent k) level text →
          Yields (Node.print indent (side.join op k other)) level
            (front ++ bracketed (side.wraps op k) text ++ back)) ∧
        ∀ text, Yields (Node.print indent m) level text →
          Yields (Node.print indent (side.spliced op other m)) level (front ++ text ++ back) := by
  constructor
  · obtain ⟨l, root, r, heq, hle, -⟩ := Side.spliced_root side op other m
    have hexpr : (side.spliced op other m).IsExpr := Side.spliced_expr hop hother hm
    rw [heq] at hexpr ⊢
    cases side with
    | left => exact Node.replaces_binary hexpr hle
    | right => exact Node.replaces_binary hexpr hle
  · intro level
    obtain ⟨y, hy, -⟩ := hother.printed hindent level
    obtain ⟨front, back, hline⟩ :=
      side.line_around op (bracketed (side.opposite.wraps op other) y)
    refine ⟨front, back, fun k text hp => ?_, fun text hp => ?_⟩
    · rw [← hline]
      exact Side.yields_join side op hp hy
    · rw [← hline]
      exact Side.yields_spliced hindent hm hf hp hy

/-- **GIVING WAY**: what becomes of a frame where its part gives way may stand where the frame
    did. -/
theorem replace (hindent : ∀ c ∈ indent.toList, Text.isFiller c = true) (h : m.Replaces n)
    (hfits : r.Fits (f.fill n)) : ∃ t, t.Replaces (f.fill n) ∧
      ∀ level, Exchanges indent f.fill (level + f.depth) level n m t := by
  by_cases hw : f.wraps m = f.wraps n
  · exact ⟨f.fill m, refill hindent h hw hfits⟩
  · cases f with
    | operand side op other =>
        obtain ⟨⟨hop, hother⟩, hn, -⟩ := fits hfits
        -- what has brackets keeps them, so the part has none
        have hplain : side.wraps op n = false := by
          refine Bool.eq_false_iff.mpr fun hn => hw ?_
          refine Eq.trans (Bool.or_eq_true_iff.mpr ?_) hn.symm
          rw [h.isFunction]
          exact (Bool.or_eq_true_iff.mp hn).imp_right (h.regroups side op)
        have hf : m.isFunction = false := h.isFunction.trans (Bool.or_eq_false_iff.mp hplain).1
        obtain ⟨hreplaces, htext⟩ := splice hindent side (h.fits .expr hn) hf hop hother
        refine ⟨_, hreplaces, fun level => ?_⟩
        obtain ⟨front, back, hjoined, hspliced⟩ := htext level
        refine ⟨front, back, fun k text hk hp => ?_, hspliced⟩
        have hk : side.wraps op k = false :=
          (wraps_alike (f := operand side op other) hk).trans hplain
        have hwhole := hjoined k text hp
        rw [hk] at hwhole
        exact hwhole
    | _ => exact (hw (wraps_akin h.toAkin nofun)).elim

end Frame

/-! ## Settings -/

/-- Frames one around the other, the innermost first. -/
abbrev Setting := List Frame

namespace Setting

/-- The tree around a part. -/
def fill : Setting → Node → Node
  | [], n => n
  | f :: setting, n => fill setting (f.fill n)

/-- How deep the lines of the part are indented. -/
def depth : Setting → Nat
  | [] => 0
  | f :: setting => depth setting + f.depth

/-- The part of a well-formed tree is well-formed. -/
theorem fits {r : Role} : ∀ {setting : Setting} {n : Node}, r.Fits (setting.fill n) →
    ∃ r' : Role, r'.Fits n := by
  intro setting
  induction setting with
  | nil => exact fun h => ⟨r, h⟩
  | cons f setting ih =>
      intro n h
      obtain ⟨r', hr'⟩ := ih h
      exact ⟨f.role, (Frame.fits hr').2.1⟩

/-- **AT THE ROOT**: where a part of a well-formed tree gives way to another, there is a
    well-formed tree with the text of the other in its place. -/
theorem replace {indent : String} (hindent : ∀ c ∈ indent.toList, Text.isFiller c = true)
    {r : Role} : ∀ {setting : Setting} {n m : Node}, m.Replaces n → r.Fits (setting.fill n) →
      ∃ t, r.Fits t ∧ Exchanges indent setting.fill setting.depth 0 n m t := by
  intro setting
  induction setting with
  | nil =>
      intro n m h hfits
      refine ⟨m, h.fits r hfits, "", "", fun k text _ hp => ?_, fun text hp => ?_⟩
      · rw [String.empty_append, String.append_empty]
        exact hp
      · rw [String.empty_append, String.append_empty]
        exact hp
  | cons f setting ih =>
      intro n m h hfits
      obtain ⟨r', hr'⟩ : ∃ r' : Role, r'.Fits (f.fill n) := fits hfits
      obtain ⟨t', hreplaces, htext⟩ := f.replace hindent h hr'
      obtain ⟨t, ht, front, back, hsame, hother⟩ := ih hreplaces hfits
      obtain ⟨front', back', hsame', hother'⟩ := htext (depth setting)
      refine ⟨t, ht, front ++ front', back' ++ back, fun k text hk hp => ?_, fun text hp => ?_⟩
      · have hwhole := hsame _ _ (f.fill_alike k n) (hsame' k text hk hp)
        simp only [String.append_assoc] at hwhole ⊢
        exact hwhole
      · have hwhole := hother _ (hother' text hp)
        simp only [String.append_assoc] at hwhole ⊢
        exact hwhole

end Setting

end BasicSyntax
