import BasicSyntax.Record.Agreement

/-! # Agreement — trees that agree part by part agree

    Two nodes are compared through their records, and the fields of two records of one kind by
    the names the kind gives them.  So records of one kind agree as soon as their values do
    (`make_agrees`), wherever they stand, and each form of node agrees with its like if the
    parts agree.  Names and operators agree by their texts alone. -/

namespace BasicSyntax

namespace Record

/-- Fields of the same names agree if their values do. -/
theorem fieldsAgree_zip :
    ∀ (names : List String) {as bs : List Record}, allAgree as bs = true →
      fieldsAgree (names.zip as) (names.zip bs) = true := by
  intro names
  induction names with
  | nil => intro as bs _; rfl
  | cons name names ih =>
      intro as bs h
      cases as with
      | nil =>
          cases bs with
          | nil => rfl
          | cons b bs => exact nomatch h
      | cons a as =>
          cases bs with
          | nil => exact nomatch h
          | cons b bs =>
              obtain ⟨hhead, htail⟩ := Bool.and_eq_true_iff.mp h
              rw [List.zip_cons_cons, List.zip_cons_cons, fieldsAgree, beq_self_eq_true, hhead,
                ih htail]
              rfl

/-- Records of one kind agree if their values do. -/
theorem make_agrees (kind : Kind) (pos pos' : Option Position) {as bs : List Record}
    (h : allAgree as bs = true) : (make kind pos as).agrees (make kind pos' bs) = true := by
  rw [make, make, agrees, beq_self_eq_true, fieldsAgree_zip _ h]
  rfl

theorem allAgree_cons {a b : Record} {as bs : List Record} (h : a.agrees b = true)
    (hs : allAgree as bs = true) : allAgree (a :: as) (b :: bs) = true := by
  rw [allAgree, h, hs]
  rfl

theorem sequence_agrees {as bs : List Record} (h : allAgree as bs = true) :
    (sequence as).agrees (sequence bs) = true := by
  rw [agrees, h]

/-- A plain value agrees with itself. -/
theorem leaf_agrees (value : Datum) : (leaf value).agrees (leaf value) = true := by
  rw [agrees, beq_self_eq_true]

/-! ## Names and operators -/

theorem ofBinder_agrees {b b' : Binder} (h : b.text = b'.text) :
    (ofBinder b).agrees (ofBinder b') = true := by
  refine make_agrees _ _ _ (allAgree_cons ?_ rfl)
  rw [h]
  exact leaf_agrees _

theorem ofOperator_agrees {op op' : Operator} (h : op.symbol = op'.symbol) :
    (ofOperator op).agrees (ofOperator op') = true := by
  refine make_agrees _ _ _ (allAgree_cons ?_ rfl)
  rw [h]
  exact leaf_agrees _

/-- What is made of names agrees if it does for each name, and their texts are the same. -/
theorem allAgree_names {record : Binder → Record}
    (hrecord : ∀ {b b' : Binder}, b.text = b'.text → (record b).agrees (record b') = true) :
    ∀ {bs bs' : List Binder}, bs.map Binder.text = bs'.map Binder.text →
      allAgree (bs.map record) (bs'.map record) = true := by
  intro bs
  induction bs with
  | nil =>
      intro bs' h
      rw [List.map_eq_nil_iff.mp h.symm]
      rfl
  | cons b bs ih =>
      intro bs' h
      cases bs' with
      | nil => exact absurd h nofun
      | cons b' bs' =>
          obtain ⟨hhead, htail⟩ := List.cons.inj h
          exact allAgree_cons (hrecord hhead) (ih htail)

theorem paramRecords_unbound : ∀ bs : List Binder, paramRecords (bs.map fun b => (b, none)) =
    bs.map fun b => sequence [ofBinder b, recordOfOption none] := by
  intro bs
  induction bs with
  | nil => rfl
  | cons b bs ih =>
      rw [List.map_cons, paramRecords, ih]
      rfl

/-- Parameters without values agree if their names do. -/
theorem paramRecords_agree {bs bs' : List Binder} (h : bs.map Binder.text = bs'.map Binder.text) :
    allAgree (paramRecords (bs.map fun b => (b, none)))
      (paramRecords (bs'.map fun b => (b, none))) = true := by
  rw [paramRecords_unbound, paramRecords_unbound]
  refine allAgree_names (fun hb => sequence_agrees ?_) h
  exact allAgree_cons (ofBinder_agrees hb) (allAgree_cons (leaf_agrees _) rfl)

end Record

namespace Node

open Record

/-! ## Nodes -/

theorem agrees_nodes_nil : Node.allAgree [] [] = true := rfl

theorem agrees_nodes_cons {a b : Node} {as bs : List Node} (h : a.agrees b = true)
    (hs : Node.allAgree as bs = true) : Node.allAgree (a :: as) (b :: bs) = true :=
  allAgree_cons h hs

theorem agrees_binder {b b' : Binder} (h : b.text = b'.text) :
    (binder b).agrees (binder b') = true := ofBinder_agrees h

theorem agrees_number (value : Int) (pos pos' : Option Position) :
    (number value pos).agrees (number value pos') = true :=
  make_agrees _ _ _ (allAgree_cons (leaf_agrees _) rfl)

theorem agrees_string (literal : String) (pos pos' : Option Position) :
    (string literal pos).agrees (string literal pos') = true :=
  make_agrees _ _ _ (allAgree_cons (leaf_agrees _) rfl)

theorem agrees_underline (pos pos' : Option Position) :
    (underline pos).agrees (underline pos') = true := make_agrees _ _ _ rfl

theorem agrees_null : null.agrees null = true := make_agrees _ _ _ rfl

theorem agrees_negative {n n' : Node} (h : n.agrees n' = true) :
    (negative n).agrees (negative n') = true := make_agrees _ _ _ (allAgree_cons h rfl)

theorem agrees_binary {left left' right right' : Node} {op op' : Operator}
    (hl : left.agrees left' = true) (ho : op.symbol = op'.symbol)
    (hr : right.agrees right' = true) :
    (binary left op right).agrees (binary left' op' right') = true :=
  make_agrees _ _ _ (allAgree_cons hl (allAgree_cons (ofOperator_agrees ho)
    (allAgree_cons hr rfl)))

theorem agrees_application {n n' : Node} {arguments arguments' : List Node}
    (h : n.agrees n' = true) (hs : Node.allAgree arguments arguments' = true) :
    (application n arguments).agrees (application n' arguments') = true :=
  make_agrees _ _ _ (allAgree_cons h (allAgree_cons (sequence_agrees hs) rfl))

theorem agrees_enclosed (form : Enclosure) {stmts stmts' : List Node}
    (h : Node.allAgree stmts stmts' = true) :
    (enclosed form stmts).agrees (enclosed form stmts') = true :=
  make_agrees _ _ _ (allAgree_cons (sequence_agrees h) rfl)

theorem agrees_function {params params' : List Binder} {body body' : Node}
    (pos pos' : Option Position) (hp : params.map Binder.text = params'.map Binder.text)
    (hb : body.agrees body' = true) :
    (function (params.map fun b => (b, none)) body pos).agrees
      (function (params'.map fun b => (b, none)) body' pos') = true :=
  make_agrees _ _ _ (allAgree_cons (sequence_agrees (paramRecords_agree hp))
    (allAgree_cons hb rfl))

theorem agrees_conditional {condition condition' thenBlock thenBlock' : Node}
    (hc : condition.agrees condition' = true) (ht : thenBlock.agrees thenBlock' = true) :
    (conditional condition thenBlock none).agrees
      (conditional condition' thenBlock' none) = true :=
  make_agrees _ _ _ (allAgree_cons hc (allAgree_cons ht (allAgree_cons (leaf_agrees _) rfl)))

theorem agrees_conditionalElse {condition condition' thenBlock thenBlock' elseBlock
    elseBlock' : Node} (hc : condition.agrees condition' = true)
    (ht : thenBlock.agrees thenBlock' = true) (he : elseBlock.agrees elseBlock' = true) :
    (conditional condition thenBlock (some elseBlock)).agrees
      (conditional condition' thenBlock' (some elseBlock')) = true :=
  make_agrees _ _ _ (allAgree_cons hc (allAgree_cons ht (allAgree_cons he rfl)))

theorem agrees_loop {condition condition' body body' : Node}
    (hc : condition.agrees condition' = true) (hb : body.agrees body' = true) :
    (loop condition body).agrees (loop condition' body') = true :=
  make_agrees _ _ _ (allAgree_cons hc (allAgree_cons hb rfl))

/-- Bindings agree if their names, parameters and meanings do; to have no parameters is one
    thing. -/
theorem agrees_binding (form : BindingForm) {named named' : Binder}
    {params params' : Option (List Binder)} {codes codes' : Node}
    (hn : named.text = named'.text)
    (hp : params.map (·.map Binder.text) = params'.map (·.map Binder.text))
    (hc : codes.agrees codes' = true) :
    (binding form named params codes).agrees (binding form named' params' codes') = true := by
  refine make_agrees _ _ _ (allAgree_cons (ofBinder_agrees hn)
    (allAgree_cons ?_ (allAgree_cons hc rfl)))
  -- no list of parameters and an empty one are different records
  cases params with
  | none =>
      cases params' with
      | none => exact leaf_agrees _
      | some bs' => exact absurd hp nofun
  | some bs =>
      cases params' with
      | none => exact absurd hp nofun
      | some bs' => exact sequence_agrees (allAgree_names ofBinder_agrees (Option.some.inj hp))

end Node

end BasicSyntax
