import BasicSyntax.Proofs.Source.Operand

/-! # Frames — a node without one of its parts

    A frame is a node without one of its parts, and filling it with a part gives the node.  There
    is a frame for every place where the rules of well-formed trees ask for a tree, and it knows
    the role in which a tree may stand there (`Frame.fits`).

    A frame is written as what stands in front of its part and what stands behind it, and neither
    depends on the part; only whether the part has brackets does (`Frame.yields`). -/

namespace BasicSyntax

open Printing

/-! ## Roles -/

/-- The sorts of well-formed trees, which are told by where a node may stand. -/
inductive Role
  | expr
  | argument
  | cluster
  | statement
  deriving DecidableEq, Repr

/-- Whether a node may stand in a role. -/
def Role.Fits : Role → Node → Prop
  | expr => Node.IsExpr
  | argument => Node.IsArgument
  | cluster => Node.IsCluster
  | statement => Node.IsStmt

namespace Node

/-- Whether a node is made of parts and is an expression wherever it stands. -/
def isCompound : Node → Bool
  | negative _ | binary _ _ _ | application _ _ | function _ _ _ => true
  | _ => false

/-- Whether a node is a statement wherever it stands. -/
def isControl : Node → Bool
  | conditional _ _ _ | loop _ _ | binding _ _ _ _ => true
  | _ => false

variable {n : Node} {r : Role}

theorem IsExpr.fits (h : n.IsExpr) (r : Role) : r.Fits n := by
  cases r with
  | expr => exact h
  | argument => exact .expr h
  | cluster => exact .expr h
  | statement => exact .cluster (.expr h)

theorem IsExpr.not_control (h : n.IsExpr) : n.isControl = false := by
  cases h <;> rfl

end Node

namespace Role

open Node

variable {n : Node} {r : Role}

/-- What is a compound is an expression. -/
theorem Fits.isExpr (h : r.Fits n) (hn : n.isCompound = true) : n.IsExpr := by
  have hcluster : n.IsCluster → n.IsExpr := by
    intro h
    cases h with
    | expr h => exact h
    | enclosed _ _ => exact nomatch hn
  cases r with
  | expr => exact h
  | argument =>
      cases h with
      | expr h => exact h
      | _ => exact nomatch hn
  | cluster => exact hcluster h
  | statement =>
      cases h with
      | cluster h => exact hcluster h
      | _ => exact nomatch hn

/-- What is a control statement stands as a statement. -/
theorem Fits.isStatement (h : r.Fits n) (hn : n.isControl = true) :
    r = .statement ∧ n.IsStmt := by
  have hexpr : ¬ n.IsExpr := fun h => Bool.noConfusion (hn.symm.trans h.not_control)
  cases r with
  | expr => exact absurd h hexpr
  | argument =>
      cases h with
      | expr h => exact absurd h hexpr
      | _ => exact nomatch hn
  | cluster =>
      cases h with
      | expr h => exact absurd h hexpr
      | _ => exact nomatch hn
  | statement => exact ⟨rfl, h⟩

/-- Statements between brackets stand anywhere but where an expression is asked for. -/
theorem fits_enclosed {form : Enclosure} {stmts : List Node} :
    r.Fits (.enclosed form stmts) ↔ r ≠ .expr ∧ ∀ m ∈ stmts, m.IsStmt := by
  constructor
  · intro h
    cases r with
    | expr => exact nomatch h
    | argument =>
        cases h with
        | expr h => exact nomatch h
        | enclosed _ hall => exact ⟨nofun, hall⟩
    | cluster =>
        cases h with
        | expr h => exact nomatch h
        | enclosed _ hall => exact ⟨nofun, hall⟩
    | statement =>
        cases h with
        | cluster h =>
            cases h with
            | expr h => exact nomatch h
            | enclosed _ hall => exact ⟨nofun, hall⟩
  · rintro ⟨hr, hall⟩
    cases r with
    | expr => exact absurd rfl hr
    | argument => exact .enclosed form hall
    | cluster => exact .enclosed form hall
    | statement => exact .cluster (.enclosed form hall)

end Role

/-! ## Frames -/

/-- A node without one of its parts. -/
inductive Frame
  | operand (side : Side) (op : Operator) (other : Node)
  | negative
  | argument (b : Binder) (before after : List Node)
  | body (params : List Binder) (pos : Option Position)
  | item (form : Enclosure) (before after : List Node)
  | condition (thenBlock : Node) (elseBlock : Option Node)
  | thenBlock (condition : Node) (elseBlock : Option Node)
  | elseBlock (condition thenBlock : Node)
  | loopCondition (body : Node)
  | loopBody (condition : Node)
  | codes (form : BindingForm) (named : Binder) (params : Option (List Binder))

namespace Frame

/-- The node with its part. -/
def fill (f : Frame) (n : Node) : Node :=
  match f with
  | operand side op other => side.join op n other
  | negative => .negative n
  | argument b before after => .application (.binder b) (before ++ n :: after)
  | body params pos => .function (params.map fun b => (b, none)) n pos
  | item form before after => .enclosed form (before ++ n :: after)
  | condition t e => .conditional n t e
  | thenBlock c e => .conditional c n e
  | elseBlock c t => .conditional c t (some n)
  | loopCondition b => .loop n b
  | loopBody c => .loop c n
  | codes form named params => .binding form named params n

/-- The role in which the part stands. -/
def role : Frame → Role
  | operand _ _ _ | negative | condition _ _ | loopCondition _ => .expr
  | argument _ _ _ => .argument
  | item _ _ _ => .statement
  | body _ _ | thenBlock _ _ | elseBlock _ _ | loopBody _ | codes _ _ _ => .cluster

/-- The other parts are well-formed. -/
def Sound : Frame → Prop
  | operand _ op other => op.symbol ≠ .dummy ∧ other.IsExpr
  | negative => True
  | argument b before after => b.IsNamed ∧ ∀ n ∈ before ++ after, n.IsArgument
  | body params _ => params ≠ [] ∧ ∀ b ∈ params, b.IsNamed
  | item _ before after => ∀ n ∈ before ++ after, n.IsStmt
  | condition t e => t.IsCluster ∧ ∀ n ∈ e, n.IsCluster
  | thenBlock c e => c.IsExpr ∧ ∀ n ∈ e, n.IsCluster
  | elseBlock c t => c.IsExpr ∧ t.IsCluster
  | loopCondition b => b.IsCluster
  | loopBody c => c.IsExpr
  | codes _ named params =>
    named.IsNamed ∧ ∀ bs ∈ params, bs ≠ [] ∧ ∀ b ∈ bs, b.IsNamed

/-- How much deeper than the node the lines of the part are indented. -/
def depth : Frame → Nat
  | item _ _ _ => 1
  | _ => 0

/-- Whether the part stands in round brackets. -/
def wraps (f : Frame) (n : Node) : Bool :=
  match f with
  | operand side op _ => side.wraps op n
  | negative => !n.isPlainPrimary
  | argument _ _ _ => !n.isPlainArgument
  | condition _ _ | loopCondition _ => !n.isPlainCondition
  | _ => false

variable {f : Frame} {n m : Node} {r : Role}

theorem mem_around {before after : List Node} {P : Node → Prop} :
    (∀ k ∈ before ++ n :: after, P k) ↔ P n ∧ ∀ k ∈ before ++ after, P k := by
  simp only [List.forall_mem_append, List.forall_mem_cons]
  exact and_left_comm

theorem function_expr {params : List Binder} {pos : Option Position} :
    (Node.function (params.map fun b => (b, none)) n pos).IsExpr ↔
      params ≠ [] ∧ (∀ b ∈ params, b.IsNamed) ∧ n.IsCluster := by
  constructor
  · intro h
    generalize hps : params.map (fun b => (b, (none : Option Node))) = ps at h
    cases h with
    | function _ hne hall hn =>
        have hinj : Function.Injective fun b : Binder => (b, (none : Option Node)) :=
          fun _ _ heq => (Prod.mk.inj heq).1
        obtain rfl := hinj.list_map hps
        exact ⟨hne, hall, hn⟩
  · rintro ⟨hne, hall, hn⟩
    exact .function pos hne hall hn

theorem conditional_stmt {condition thenBlock : Node} {elseBlock : Option Node} :
    (Node.conditional condition thenBlock elseBlock).IsStmt ↔
      condition.IsExpr ∧ thenBlock.IsCluster ∧ ∀ n ∈ elseBlock, n.IsCluster := by
  constructor
  · intro h
    cases h with
    | cluster h =>
        cases h with
        | expr h => exact nomatch h
    | conditional hc ht => exact ⟨hc, ht, nofun⟩
    | conditionalElse hc ht he => exact ⟨hc, ht, fun n hn => Option.some.inj hn ▸ he⟩
  · rintro ⟨hc, ht, he⟩
    cases elseBlock with
    | none => exact .conditional hc ht
    | some n => exact .conditionalElse hc ht (he n rfl)

/-- **FITTING**: in a well-formed node every part stands in its role, the others are well-formed,
    and the part may give way to another of its role. -/
theorem fits (h : r.Fits (f.fill n)) :
    f.Sound ∧ f.role.Fits n ∧ ∀ m, f.role.Fits m → r.Fits (f.fill m) := by
  cases f with
  | operand side op other =>
      obtain ⟨hn, hop, hother⟩ := Side.join_operands (h.isExpr (by cases side <;> rfl))
      exact ⟨⟨hop, hother⟩, hn, fun m hm => (Side.join_expr hm hop hother).fits r⟩
  | negative =>
      cases h.isExpr rfl with
      | negative hn => exact ⟨trivial, hn, fun m hm => (Node.IsExpr.negative hm).fits r⟩
  | argument b before after =>
      cases h.isExpr rfl with
      | application hb _ hall =>
          obtain ⟨hn, hothers⟩ := mem_around.mp hall
          refine ⟨⟨hb, hothers⟩, hn, fun m hm => (Node.IsExpr.application hb ?_ ?_).fits r⟩
          · exact List.append_ne_nil_of_right_ne_nil _ (List.cons_ne_nil _ _)
          · exact mem_around.mpr ⟨hm, hothers⟩
  | body params pos =>
      obtain ⟨hne, hall, hn⟩ := function_expr.mp (h.isExpr rfl)
      exact ⟨⟨hne, hall⟩, hn, fun m hm => (function_expr.mpr ⟨hne, hall, hm⟩).fits r⟩
  | item form before after =>
      obtain ⟨hr, hall⟩ := Role.fits_enclosed.mp h
      obtain ⟨hn, hothers⟩ := mem_around.mp hall
      exact ⟨hothers, hn, fun m hm => Role.fits_enclosed.mpr ⟨hr, mem_around.mpr ⟨hm, hothers⟩⟩⟩
  | condition t e =>
      obtain ⟨rfl, hs⟩ := h.isStatement rfl
      obtain ⟨hc, ht, he⟩ := conditional_stmt.mp hs
      exact ⟨⟨ht, he⟩, hc, fun m hm => conditional_stmt.mpr ⟨hm, ht, he⟩⟩
  | thenBlock c e =>
      obtain ⟨rfl, hs⟩ := h.isStatement rfl
      obtain ⟨hc, ht, he⟩ := conditional_stmt.mp hs
      exact ⟨⟨hc, he⟩, ht, fun m hm => conditional_stmt.mpr ⟨hc, hm, he⟩⟩
  | elseBlock c t =>
      obtain ⟨rfl, hs⟩ := h.isStatement rfl
      obtain ⟨hc, ht, he⟩ := conditional_stmt.mp hs
      exact ⟨⟨hc, ht⟩, he n rfl, fun m hm => .conditionalElse hc ht hm⟩
  | loopCondition b =>
      obtain ⟨rfl, hs⟩ := h.isStatement rfl
      cases hs with
      | cluster h =>
          cases h with
          | expr h => exact nomatch h
      | loop hc hb => exact ⟨hb, hc, fun m hm => .loop hm hb⟩
  | loopBody c =>
      obtain ⟨rfl, hs⟩ := h.isStatement rfl
      cases hs with
      | cluster h =>
          cases h with
          | expr h => exact nomatch h
      | loop hc hb => exact ⟨hc, hb, fun m hm => .loop hc hm⟩
  | codes form named params =>
      obtain ⟨rfl, hs⟩ := h.isStatement rfl
      cases hs with
      | cluster h =>
          cases h with
          | expr h => exact nomatch h
      | binding _ hnamed hparams hc =>
          exact ⟨⟨hnamed, hparams⟩, hc, fun m hm => .binding form hnamed hparams hm⟩

/-! ## The text of a frame -/

/-- Texts with another between any two are what stands in front of one of them and what stands
    behind it. -/
theorem intercalate_around (sep : String) (ys : List String) : ∀ xs : List String,
    ∃ front back, ∀ x, sep.intercalate (xs ++ x :: ys) = front ++ x ++ back := by
  intro xs
  induction xs with
  | nil =>
      cases ys with
      | nil =>
          refine ⟨"", "", fun x => ?_⟩
          rw [List.nil_append, String.intercalate_singleton, String.empty_append,
            String.append_empty]
      | cons y ys =>
          refine ⟨"", sep ++ sep.intercalate (y :: ys), fun x => ?_⟩
          rw [List.nil_append, String.intercalate_cons_cons, String.empty_append,
            String.append_assoc]
  | cons z xs ih =>
      obtain ⟨front, back, h⟩ := ih
      refine ⟨z ++ sep ++ front, back, fun x => ?_⟩
      have hne : xs ++ x :: ys ≠ [] := List.append_ne_nil_of_right_ne_nil _ (List.cons_ne_nil _ _)
      obtain ⟨w, ws, hw⟩ := List.exists_cons_of_ne_nil hne
      rw [List.cons_append, hw, String.intercalate_cons_cons, ← hw, h x]
      simp only [String.append_assoc]

variable {indent : String}

/-- Arguments in front of others are printed in front of them. -/
theorem arguments_before (hindent : ∀ c ∈ indent.toList, Text.isFiller c = true) (level : Nat) :
    ∀ {before : List Node}, (∀ n ∈ before, n.IsArgument) → ∃ xs, ∀ rest ys,
      Yields (Node.printArguments indent rest) level ys →
        Yields (Node.printArguments indent (before ++ rest)) level (xs ++ ys) := by
  intro before
  induction before with
  | nil => exact fun _ => ⟨[], fun _ _ h => h⟩
  | cons n before ih =>
      intro hall
      obtain ⟨hn, hmore⟩ := List.forall_mem_cons.mp hall
      obtain ⟨text, hp, -⟩ := hn.printed hindent level
      obtain ⟨xs, hxs⟩ := ih hmore
      exact ⟨bracketed (!n.isPlainArgument) text :: xs,
        fun rest ys h => Node.yields_argument hp (hxs rest ys h)⟩

/-- Statements in front of others have their lines in front of theirs. -/
theorem lines_before (hindent : ∀ c ∈ indent.toList, Text.isFiller c = true) (level : Nat) :
    ∀ {before : List Node}, (∀ n ∈ before, n.IsStmt) → ∃ xs, ∀ rest ys,
      Yields (Node.printLines indent rest) level ys →
        Yields (Node.printLines indent (before ++ rest)) level (xs ++ ys) := by
  intro before
  induction before with
  | nil => exact fun _ => ⟨[], fun _ _ h => h⟩
  | cons n before ih =>
      intro hall
      obtain ⟨hn, hmore⟩ := List.forall_mem_cons.mp hall
      obtain ⟨text, hp, -⟩ := hn.printed hindent level
      obtain ⟨xs, hxs⟩ := ih hmore
      exact ⟨(Record.repeated indent level ++ text) :: xs,
        fun rest ys h => Node.yields_line (Node.isNull_stmt hn) hp (hxs rest ys h)⟩

/-- A second branch has a text, also if there is none. -/
theorem printed_else (hindent : ∀ c ∈ indent.toList, Text.isFiller c = true) (level : Nat)
    {e : Option Node} (he : ∀ n ∈ e, n.IsCluster) :
    ∃ text, Yields (Node.printElse indent e) level text := by
  cases e with
  | none => exact ⟨"", rfl⟩
  | some n =>
      obtain ⟨text, hp, -⟩ := (he n rfl).printed hindent level
      exact ⟨" else " ++ text, Node.yields_else hp⟩

/-- **AROUND A PART**: a frame is written as something in front of its part and something behind
    it, the same whatever the part is, and brackets around the part where it needs them. -/
theorem yields (hindent : ∀ c ∈ indent.toList, Text.isFiller c = true) (hf : f.Sound)
    (level : Nat) : ∃ front back, ∀ n text, n.isNull = false →
      Yields (Node.print indent n) (level + f.depth) text →
        Yields (Node.print indent (f.fill n)) level
          (front ++ bracketed (f.wraps n) text ++ back) := by
  cases f with
  | operand side op other =>
      obtain ⟨y, hy, -⟩ := hf.2.printed hindent level
      obtain ⟨front, back, hline⟩ :=
        side.line_around op (bracketed (side.opposite.wraps op other) y)
      refine ⟨front, back, fun n text _ h => ?_⟩
      rw [← hline]
      exact Side.yields_join side op h hy
  | negative =>
      refine ⟨"-", "", fun n text _ h => ?_⟩
      rw [fill, String.append_empty]
      exact Node.yields_negative h
  | argument b before after =>
      obtain ⟨hbefore, hafter⟩ := List.forall_mem_append.mp hf.2
      obtain ⟨xs, hxs⟩ := arguments_before hindent level hbefore
      obtain ⟨ys, hys, -⟩ := Node.printed_arguments hafter
        (fun n hn => (hafter n hn).printed hindent) level
      obtain ⟨front, back, htext⟩ := intercalate_around " " ys (b.text :: xs)
      refine ⟨front, back, fun n text _ h => ?_⟩
      rw [← htext]
      exact Node.yields_application b (hxs _ _ (Node.yields_argument h hys))
  | body params pos =>
      refine ⟨Node.functionSource (params.map Binder.text) "", "", fun n text _ h => ?_⟩
      rw [Node.functionSource, String.append_empty, String.append_empty]
      exact Node.yields_function params pos h
  | item form before after =>
      obtain ⟨hbefore, hafter⟩ := List.forall_mem_append.mp hf
      obtain ⟨xs, hxs⟩ := lines_before hindent (level + 1) hbefore
      obtain ⟨ys, hys, -⟩ := Node.printed_lines hindent hafter
        (fun n hn => (hafter n hn).printed hindent) (level + 1)
      obtain ⟨front, back, htext⟩ := intercalate_around "\n" ys xs
      refine ⟨form.opening ++ "\n" ++ front ++ Record.repeated indent (level + 1),
        back ++ "\n" ++ Record.repeated indent level ++ form.closing, fun n text hn h => ?_⟩
      have hnull : ¬ (before ++ n :: after).all Node.isNull = true := by
        rw [List.all_append, List.all_cons, hn, Bool.false_and, Bool.and_false]
        exact Bool.noConfusion
      have hwhole := Node.yields_enclosed form hnull (hxs _ _ (Node.yields_line hn h hys))
      rw [Node.enclosedSource, htext] at hwhole
      simp only [String.append_assoc] at hwhole ⊢
      exact hwhole
  | condition t e =>
      obtain ⟨thenText, ht, -⟩ := hf.1.printed hindent level
      obtain ⟨elseText, he⟩ := printed_else hindent level hf.2
      refine ⟨"if ", " " ++ thenText ++ elseText, fun n text _ h => ?_⟩
      rw [← String.append_assoc, ← String.append_assoc]
      exact Node.yields_conditional h ht he
  | thenBlock c e =>
      obtain ⟨conditionText, hc, -⟩ := hf.1.printed hindent level
      obtain ⟨elseText, he⟩ := printed_else hindent level hf.2
      exact ⟨"if " ++ bracketed (!c.isPlainCondition) conditionText ++ " ", elseText,
        fun n text _ h => Node.yields_conditional hc h he⟩
  | elseBlock c t =>
      obtain ⟨conditionText, hc, -⟩ := hf.1.printed hindent level
      obtain ⟨thenText, ht, -⟩ := hf.2.printed hindent level
      refine ⟨"if " ++ bracketed (!c.isPlainCondition) conditionText ++ " " ++ thenText ++
        " else ", "", fun n text _ h => ?_⟩
      rw [String.append_empty, String.append_assoc]
      exact Node.yields_conditional hc ht (Node.yields_else h)
  | loopCondition b =>
      obtain ⟨bodyText, hb, -⟩ := hf.printed hindent level
      refine ⟨"while ", " " ++ bodyText, fun n text _ h => ?_⟩
      rw [← String.append_assoc]
      exact Node.yields_loop h hb
  | loopBody c =>
      obtain ⟨conditionText, hc, -⟩ := Node.IsExpr.printed hindent hf level
      refine ⟨"while " ++ bracketed (!c.isPlainCondition) conditionText ++ " ", "",
        fun n text _ h => ?_⟩
      rw [String.append_empty]
      exact Node.yields_loop hc h
  | codes form named params =>
      refine ⟨Node.bindingSource form named params "", "", fun n text _ h => ?_⟩
      rw [Node.bindingSource, String.append_empty, String.append_empty]
      exact Node.yields_binding form named params h

end Frame

end BasicSyntax
