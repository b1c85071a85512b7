import BasicSyntax.Proofs.Parse.Ahead

/-! # Remainders — what a state still asks of the tokens

    A context is a program with a hole.  Once the hole is filled with a node, the rest of the
    tokens has to complete the program: `Rest out` says so for each sort of context, with `out`
    the entries of the completed program, and for states likewise.  It is said in terms of what
    the grammar has ahead, so a state's remainder knows nothing of how the state is left.

    That a token does to a state what it does to its remainder is proved in
    `Proofs/Parse/Derivative`. -/

namespace BasicSyntax.Parse

open Grammar

/-- A run continued to the left by the operands before it, the last of them first. -/
def prepend (before : List (Node × Operator)) (r : Node × List (Pair Node)) :
    Node × List (Pair Node) :=
  before.foldl (fun acc item => (item.1, (item.2, acc.1) :: acc.2)) r

/-- The node of a run continued to the left. -/
def runWith (before : List (Node × Operator)) (r : Node × List (Pair Node)) : Node :=
  resolve (prepend before r).1 (prepend before r).2

/-- What comes next, added to what came before with the last first. -/
theorem reverse_append_cons {α : Type} (before : List α) (a : α) (next : List α) :
    before.reverse ++ a :: next = (a :: before).reverse ++ next := by
  rw [List.reverse_cons, List.append_assoc, List.singleton_append]

theorem runOf_eq (before : List (Node × Operator)) (latest : Node) :
    runOf before latest = runWith before (latest, []) := rfl

theorem applicationOf_eq (callee : Binder) (arguments : List Node) :
    applicationOf callee arguments = applicationNode callee arguments.reverse := by
  cases arguments with
  | nil => rfl
  | cons n rest =>
      show Node.application (.binder callee) (n :: rest).reverse
        = applicationNode callee (n :: rest).reverse
      cases h : (n :: rest).reverse with
      | nil => exact absurd (List.reverse_eq_nil_iff.mp h) (List.cons_ne_nil n rest)
      | cons m more => rfl

theorem paramsOf_eq (params : List Binder) : paramsOf params = paramList params.reverse := by
  cases params with
  | nil => rfl
  | cons b rest =>
      show some (b :: rest).reverse = paramList (b :: rest).reverse
      cases h : (b :: rest).reverse with
      | nil => exact absurd (List.reverse_eq_nil_iff.mp h) (List.cons_ne_nil b rest)
      | cons m more => rfl

theorem functionOf_eq (pos : Position) (params : List Binder) (body : Node) :
    functionOf pos params body = functionNode pos params.reverse body := rfl

mutual

/-- What is left to read behind a statement. -/
def StmtContext.Rest (out : List Node) : StmtContext → Behind Node
  | .line before => fun n => leafAhead [.separator] fun _ => linesAhead fun ns =>
      out = before.reverse ++ n :: ns
  | .item form _ before outer => fun n => itemsBehind form fun ns =>
      outer.Rest out (.enclosed form (before.reverse ++ n :: ns))

/-- What is left to read behind statements between brackets. -/
def EnclosedContext.Rest (out : List Node) : EnclosedContext → Behind Node
  | .cluster c => c.Rest out
  | .argument callee before c => fun n => chainAhead fun ns =>
      c.Rest out (applicationNode callee (before.reverse ++ n :: ns))

/-- What is left to read behind a cluster. -/
def ClusterContext.Rest (out : List Node) : ClusterContext → Behind Node
  | .stmt c => c.Rest out
  | .thenBlock condition c => thenBehind (c.Rest out) condition
  | .elseBlock condition thenBlock c => fun n =>
      c.Rest out (.conditional condition thenBlock (some n))
  | .loopBody condition c => fun n => c.Rest out (.loop condition n)
  | .codes form named params c => fun n =>
      c.Rest out (.binding form named (paramList params.reverse) n)
  | .functionBody pos params c => fun n => c.Rest out (functionNode pos params.reverse n)

/-- What is left to read behind an expression. -/
def ExprContext.Rest (out : List Node) : ExprContext → Behind Node
  | .cluster c => c.Rest out
  | .group c => fun n => leafAhead [.closeParen] fun _ => c.Rest out n
  | .argument callee before c => fun n => leafAhead [.closeParen] fun _ => chainAhead fun ns =>
      c.Rest out (applicationNode callee (before.reverse ++ n :: ns))

/-- What is left to read behind an operand. -/
def PrimaryContext.Rest (out : List Node) : PrimaryContext → Behind Node
  | .condition c => fun n => clusterAhead (thenBehind (c.Rest out) n)
  | .loopCondition c => fun n => clusterAhead fun m => c.Rest out (.loop n m)
  | .operand before negated c => fun n =>
      runBehind (fun r => c.Rest out (runWith before r)) (if negated then .negative n else n)

end

/-- What is left to read in a state. -/
def State.Rest (out : List Node) : State → List Token → Prop
  | .stmt (.line before) => linesAhead fun ns => out = before.reverse ++ ns
  | .stmt (.item form _ before outer) => itemsAhead form fun ns =>
      outer.Rest out (.enclosed form (before.reverse ++ ns))
  | .expr c => exprAhead (c.Rest out)
  | .cluster c => clusterAhead (c.Rest out)
  | .primary (.operand before false c) => runAhead fun r => c.Rest out (runWith before r)
  | .primary c => primaryAhead (c.Rest out)
  | .bindingHead .value c => fun ts => bindingAhead (c.Rest out) .value ts ∨
      leafAhead [.macroWord] (fun _ => bindingAhead (c.Rest out) .template) ts
  | .bindingHead .template c => bindingAhead (c.Rest out) .template
  | .bindingParams form named params c => bindingBehind (c.Rest out) form named params.reverse
  | .functionHead pos c => leafAhead [.identifier] fun p =>
      functionBehind (c.Rest out) pos [binderOf p]
  | .functionParams pos params c => functionBehind (c.Rest out) pos params.reverse
  | .applied callee arguments _ c => chainAhead fun ns =>
      c.Rest out (applicationNode callee (arguments.reverse ++ ns))
  | .literal n c => c.Rest out n
  | .group n c => c.Rest out n
  | .enclosed n c => c.Rest out n

/-! ## Where a token leads -/

/-- What a token led to leaves the given tokens to read. -/
def Leads (out : List Node) (ts : List Token) : Except Expected State → Prop
  | .ok s => s.Rest out ts
  | .error _ => False

/-- A part that a token may have begun leaves the given tokens to read. -/
def Begins (out : List Node) (ts : List Token) : Option State → Prop
  | some s => s.Rest out ts
  | none => False

variable {out : List Node} {t : Token} {ts : List Token}

@[simp] theorem leads_ok (s : State) :
    Leads out ts (.ok s) ↔ s.Rest out ts := Iff.rfl

@[simp] theorem leads_pure (s : State) :
    Leads out ts (pure s) ↔ s.Rest out ts := Iff.rfl

@[simp] theorem begins_some (s : State) :
    Begins out ts (some s) ↔ s.Rest out ts := Iff.rfl

@[simp] theorem begins_none : Begins out ts none ↔ False := Iff.rfl

@[simp] theorem leads_begun (e : Expected) (o : Option State) :
    Leads out ts (begun e o) ↔ Begins out ts o := by
  cases o with
  | none => exact Iff.rfl
  | some s => exact Iff.rfl

@[simp] theorem leads_require (e : Expected) (f : Unit → Except Expected State) :
    Leads out ts (require t e >>= f) ↔ t.terminal ∈ e ∧ Leads out ts (f ()) := by
  unfold require
  by_cases h : t.terminal ∈ e
  · rw [if_pos h]
    exact ⟨fun hl => ⟨h, hl⟩, fun hl => hl.2⟩
  · rw [if_neg h]
    exact ⟨fun hl => hl.elim, fun hl => absurd hl.1 h⟩

@[simp] theorem leads_requireAs (e e' : Expected) (f : Unit → Except Expected State) :
    Leads out ts ((require t e).mapError (fun _ => e') >>= f) ↔
      t.terminal ∈ e ∧ Leads out ts (f ()) := by
  unfold require
  by_cases h : t.terminal ∈ e
  · rw [if_pos h]
    exact ⟨fun hl => ⟨h, hl⟩, fun hl => hl.2⟩
  · rw [if_neg h]
    exact ⟨fun hl => hl.elim, fun hl => absurd hl.1 h⟩

end BasicSyntax.Parse
