import BasicSyntax.Fold

/-! # Contexts — what is still open around the point of reading

    While a program is read, whatever has been begun and not finished is kept as a context: a
    program with a hole where the next part goes.  There is one type of context for each sort of
    part, and each constructor is a rule of the grammar, read up to the part that is missing, in
    the context of what the rule is part of.  So a context can hold nothing that does not fit. -/

namespace BasicSyntax.Parse

mutual

/-- Where a statement goes. -/
inductive StmtContext
  /-- On a line of the program, after the lines before it, the last first. -/
  | line (before : List Node)
  /-- Between brackets, after the statements before it, the last first; `fresh` while nothing
      stands behind the opening bracket. -/
  | item (form : Enclosure) (fresh : Bool) (before : List Node) (outer : EnclosedContext)

/-- Where statements between brackets go. -/
inductive EnclosedContext
  | cluster (outer : ClusterContext)
  /-- As an argument, after the arguments before it, the last first. -/
  | argument (callee : Binder) (before : List Node) (outer : PrimaryContext)

/-- Where a cluster goes: an expression, or statements between brackets. -/
inductive ClusterContext
  | stmt (outer : StmtContext)
  | thenBlock (condition : Node) (outer : StmtContext)
  | elseBlock (condition thenBlock : Node) (outer : StmtContext)
  | loopBody (condition : Node) (outer : StmtContext)
  | codes (form : BindingForm) (named : Binder) (params : List Binder) (outer : StmtContext)
  | functionBody (pos : Position) (params : List Binder) (outer : ExprContext)

/-- Where an expression goes. -/
inductive ExprContext
  | cluster (outer : ClusterContext)
  /-- Between round brackets, as an operand. -/
  | group (outer : PrimaryContext)
  /-- Between round brackets, as an argument. -/
  | argument (callee : Binder) (before : List Node) (outer : PrimaryContext)

/-- Where an operand goes, its sign apart. -/
inductive PrimaryContext
  | condition (outer : StmtContext)
  | loopCondition (outer : StmtContext)
  /-- In a run of operands, after those before it, each with the operator after it, the last
      first; `negated` behind a minus of its own. -/
  | operand (before : List (Node × Operator)) (negated : Bool) (outer : ExprContext)

end

end BasicSyntax.Parse
