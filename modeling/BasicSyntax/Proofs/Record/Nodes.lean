import BasicSyntax.Proofs.Node.Unplaced
import BasicSyntax.Proofs.Record.Headline

/-! # Records of nodes — the tree is in them

    The record of a node has the fields that its kind calls for (`toRecord_wellNamed`), and a
    node all of whose parts have a source form is read back from its record as it was
    (`toNode?_toRecord`).  Such nodes are the same if their records are, down to the point of
    every part. -/

namespace BasicSyntax

open Record

/-! ## Fields -/

section

variable {kind : Kind} {r : Record} {rs : List Record}

theorem Record.make_wellNamed (pos : Option Position) (hlength : rs.length = kind.fields.length)
    (h : ∀ r ∈ rs, r.WellNamed) : (make kind pos rs).WellNamed := by
  refine .node ?_ fun f hf => h f.2 (List.of_mem_zip hf).2
  rw [List.map_fst_zip (Nat.le_of_eq hlength.symm)]

theorem wellNamed_cons (h : r.WellNamed) (hs : ∀ r ∈ rs, r.WellNamed) :
    ∀ r' ∈ r :: rs, r'.WellNamed := List.forall_mem_cons.mpr ⟨h, hs⟩

theorem wellNamed_nil : ∀ r ∈ ([] : List Record), r.WellNamed := List.forall_mem_nil _

end

theorem ofBinder_wellNamed (b : Binder) : (ofBinder b).WellNamed :=
  make_wellNamed b.pos rfl (wellNamed_cons (.leaf _) wellNamed_nil)

theorem ofOperator_wellNamed (op : Operator) : (ofOperator op).WellNamed :=
  make_wellNamed op.pos rfl (wellNamed_cons (.leaf _) wellNamed_nil)

theorem ofBinders_wellNamed (bs : List Binder) : (ofBinders bs).WellNamed :=
  .sequence (List.forall_mem_map.mpr fun b _ => ofBinder_wellNamed b)

mutual

/-- The record of any node has the fields that its kind calls for, and so have its parts. -/
theorem Node.toRecord_wellNamed : ∀ n : Node, n.toRecord.WellNamed
  | .binder b => ofBinder_wellNamed b
  | .unit pos | .underline pos => make_wellNamed pos rfl wellNamed_nil
  | .number _ pos | .string _ pos => make_wellNamed pos rfl (wellNamed_cons (.leaf _) wellNamed_nil)
  | .function params body pos =>
      make_wellNamed pos rfl (wellNamed_cons (.sequence (paramRecords_wellNamed params))
        (wellNamed_cons body.toRecord_wellNamed wellNamed_nil))
  | .template params body pos =>
      make_wellNamed pos rfl (wellNamed_cons (ofBinders_wellNamed params)
        (wellNamed_cons body.toRecord_wellNamed wellNamed_nil))
  | .operator op => ofOperator_wellNamed op
  | .negative primary =>
      make_wellNamed none rfl (wellNamed_cons primary.toRecord_wellNamed wellNamed_nil)
  | .binary left op right =>
      make_wellNamed none rfl (wellNamed_cons left.toRecord_wellNamed
        (wellNamed_cons (ofOperator_wellNamed op)
          (wellNamed_cons right.toRecord_wellNamed wellNamed_nil)))
  | .application child arguments =>
      make_wellNamed none rfl (wellNamed_cons child.toRecord_wellNamed
        (wellNamed_cons (.sequence (recordsOf_wellNamed arguments)) wellNamed_nil))
  | .enclosed form stmts =>
      make_wellNamed none (by cases form <;> rfl)
        (wellNamed_cons (.sequence (recordsOf_wellNamed stmts)) wellNamed_nil)
  | .null => make_wellNamed none rfl wellNamed_nil
  | .conditional condition thenBlock elseBlock =>
      make_wellNamed none rfl (wellNamed_cons condition.toRecord_wellNamed
        (wellNamed_cons thenBlock.toRecord_wellNamed
          (wellNamed_cons (recordOfOption_wellNamed elseBlock) wellNamed_nil)))
  | .loop condition body =>
      make_wellNamed none rfl (wellNamed_cons condition.toRecord_wellNamed
        (wellNamed_cons body.toRecord_wellNamed wellNamed_nil))
  | .binding form named params codes => by
      have hparams : ((params.map ofBinders).getD (.leaf .none)).WellNamed := by
        cases params with
        | none => exact .leaf .none
        | some bs => exact ofBinders_wellNamed bs
      exact make_wellNamed none (by cases form <;> rfl) (wellNamed_cons (ofBinder_wellNamed named)
        (wellNamed_cons hparams (wellNamed_cons codes.toRecord_wellNamed wellNamed_nil)))
  | .native _ params =>
      make_wellNamed none rfl (wellNamed_cons (.leaf _)
        (wellNamed_cons (ofBinders_wellNamed params) wellNamed_nil))
  | .datum value => .leaf value
  | .tuple items => .sequence (recordsOf_wellNamed items)

theorem recordOfOption_wellNamed : ∀ n : Option Node, (recordOfOption n).WellNamed
  | none => .leaf .none
  | some n => n.toRecord_wellNamed

theorem recordsOf_wellNamed : ∀ ns : List Node, ∀ r ∈ recordsOf ns, r.WellNamed
  | [] => wellNamed_nil
  | n :: ns => wellNamed_cons n.toRecord_wellNamed (recordsOf_wellNamed ns)

theorem paramRecords_wellNamed :
    ∀ params : List (Binder × Option Node), ∀ r ∈ paramRecords params, r.WellNamed
  | [] => wellNamed_nil
  | (b, value) :: rest =>
      wellNamed_cons (.sequence (wellNamed_cons (ofBinder_wellNamed b)
        (wellNamed_cons (recordOfOption_wellNamed value) wellNamed_nil)))
        (paramRecords_wellNamed rest)

end

/-! ## Reading back -/

theorem Record.posOf_toPlace (pos : Option Position) : posOf (pos.map Position.toPlace) = pos := by
  cases pos <;> rfl

theorem Record.toBinder?_ofBinder (b : Binder) : (ofBinder b).toBinder? = some b := by
  simp [ofBinder, make, ofText, Kind.fields, toBinder?, posOf_toPlace]

theorem Record.toNode?_ofBinder (b : Binder) : (ofBinder b).toNode? = some (.binder b) := by
  show (ofBinder b).toBinder?.map Node.binder = _
  rw [toBinder?_ofBinder]
  rfl

theorem Record.toOperator?_ofOperator (op : Operator) : (ofOperator op).toOperator? = some op := by
  have hsymbol : Symbol.ofText? op.symbol.text = some op.symbol := by
    cases op.symbol <;> decide
  simp [ofOperator, make, ofText, Kind.fields, toOperator?, hsymbol, posOf_toPlace]

theorem Record.toBinders?_ofBinders (bs : List Binder) : (ofBinders bs).toBinders? = some bs := by
  rw [ofBinders, toBinders?]
  induction bs with
  | nil => rfl
  | cons b bs ih => simp [toBinder?_ofBinder, ih]

theorem Record.toFunctionParams?_unbound (bs : List Binder) :
    toFunctionParams? (paramRecords (bs.map fun b => (b, none))) =
      some (bs.map fun b => (b, none)) := by
  induction bs with
  | nil => rfl
  | cons b bs ih => simp [paramRecords, recordOfOption, toFunctionParams?, toBinder?_ofBinder, ih]

theorem Record.toNodes?_each {ns : List Node} (h : ∀ n ∈ ns, n.toRecord.toNode? = some n) :
    toNodes? (recordsOf ns) = some ns := by
  induction ns with
  | nil => rfl
  | cons n ns ih =>
      obtain ⟨hn, hns⟩ := List.forall_mem_cons.mp h
      simp [recordsOf, toNodes?, hn, ih hns]

/-- **READ BACK** from its record a node is what it was. -/
theorem Node.toNode?_toRecord {n : Node} (h : n.IsPrintable) : n.toRecord.toNode? = some n := by
  induction h with
  | name b => exact toNode?_ofBinder b
  | number value pos => simp [toRecord, make, Kind.fields, toNode?, posOf_toPlace]
  | string literal pos => simp [toRecord, make, Kind.fields, toNode?, ofText, posOf_toPlace]
  | underline pos => simp [toRecord, make, Kind.fields, toNode?, posOf_toPlace]
  | null => rfl
  | negative _ ih => simp [toRecord, make, Kind.fields, toNode?, ih]
  | binary op _ _ ihLeft ihRight =>
      simp [toRecord, join, make, Kind.fields, toNode?, ihLeft, ihRight, toOperator?_ofOperator]
  | application b _ ih =>
      simp [toRecord, make, Kind.fields, toNode?, toNode?_ofBinder, toNodes?_each ih]
  | enclosed form _ ih =>
      cases form <;> simp [toRecord, make, Enclosure.kind, Kind.fields, toNode?, toNodes?_each ih]
  | function params pos _ ih =>
      simp [toRecord, make, Kind.fields, toNode?, toFunctionParams?_unbound, ih, posOf_toPlace]
  | conditional _ _ ihCondition ihThen =>
      simp [toRecord, recordOfOption, make, Kind.fields, toNode?, ihCondition, ihThen]
  | @conditionalElse _ _ elseBlock _ _ helse ihCondition ihThen ihElse =>
      rw [toRecord, recordOfOption]
      show toNode? (node .conditional none [_, _, ("else_block", elseBlock.toRecord)]) = _
      rw [toNode?, ihCondition, ihThen, ihElse]
      · rfl
      · intro hnone
        rw [hnone] at ihElse
        obtain rfl := Option.some.inj ihElse
        cases helse
  | loop _ _ ihCondition ihBody => simp [toRecord, make, Kind.fields, toNode?, ihCondition, ihBody]
  | binding form named params _ ih =>
      have hparams : ((params.map ofBinders).getD (.leaf .none)).toParams? = some params := by
        cases params with
        | none => rfl
        | some bs => exact congrArg (Option.map some) (toBinders?_ofBinders bs)
      cases form <;>
        simp [toRecord, make, BindingForm.kind, Kind.fields, toNode?, toBinder?_ofBinder,
          hparams, ih]

/-- Nodes with the same record are the same. -/
theorem Node.toRecord_injective {n m : Node} (hn : n.IsPrintable) (hm : m.IsPrintable)
    (h : n.toRecord = m.toRecord) : n = m := by
  have hread := toNode?_toRecord hn
  rw [h, toNode?_toRecord hm] at hread
  exact (Option.some.inj hread).symm

end BasicSyntax
