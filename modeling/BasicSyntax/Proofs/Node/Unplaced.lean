import BasicSyntax.Node.Source
import BasicSyntax.Proofs.Agreement
import BasicSyntax.Proofs.Node.Relocate
import BasicSyntax.Proofs.WellFormed

/-! # Trees without points — what printing and comparing look at

    Neither printing nor comparing looks at points.  Printing a relocated tree is printing the
    tree (`print_relocate`), whatever tree it is.  And well-formed trees that agree are the same
    tree once their points are taken away (`agrees_unplaced`), so that programs that agree are
    printed alike (`printProgram_agrees`). -/

namespace BasicSyntax

namespace Node

/-! ## Printing -/

section

variable (f : Relocation) (n : Node)

@[simp] theorem isNull_relocate : (n.relocate f).isNull = n.isNull := by
  cases n <;> rfl

@[simp] theorem isFunction_relocate : (n.relocate f).isFunction = n.isFunction := by
  cases n <;> rfl

@[simp] theorem regroupsLeft_relocate (op : Operator) :
    (n.relocate f).regroupsLeft (op.relocate f) = n.regroupsLeft op := by
  cases n <;> rfl

@[simp] theorem regroupsRight_relocate (op : Operator) :
    (n.relocate f).regroupsRight (op.relocate f) = n.regroupsRight op := by
  cases n <;> rfl

@[simp] theorem isPlainPrimary_relocate : (n.relocate f).isPlainPrimary = n.isPlainPrimary := by
  cases n <;> rfl

@[simp] theorem isPlainArgument_relocate :
    (n.relocate f).isPlainArgument = n.isPlainArgument := by
  cases n <;> rfl

@[simp] theorem isPlainCondition_relocate :
    (n.relocate f).isPlainCondition = n.isPlainCondition := by
  cases n <;> rfl

end

theorem all_isNull_relocate (f : Relocation) (ns : List Node) :
    (relocateAll f ns).all isNull = ns.all isNull := by
  induction ns with
  | nil => rfl
  | cons n ns ih => rw [relocateAll, List.all_cons, List.all_cons, ih, isNull_relocate]

theorem paramNames_relocate (f : Relocation) :
    ∀ params, paramNames (relocateParams f params) = paramNames params
  | [] => rfl
  | (b, none) :: rest => by
      rw [relocateParams, relocateOption, paramNames, paramNames, paramNames_relocate f rest]
      rfl
  | (b, some n) :: rest => rfl

theorem bindingSource_relocate (f : Relocation) (form : BindingForm) (named : Binder)
    (params : Option (List Binder)) (codes : String) :
    bindingSource form (named.relocate f) (params.map fun bs => bs.map (·.relocate f)) codes =
      bindingSource form named params codes := by
  cases params with
  | none => rfl
  | some bs =>
      have htexts : (bs.map (·.relocate f)).map Binder.text = bs.map Binder.text := List.map_map
      show " ".intercalate (_ :: _ :: (bs.map (·.relocate f)).map Binder.text) ++ _ ++ _ = _
      rw [htexts]
      rfl

mutual

/-- Printing does not look at points. -/
theorem print_relocate (f : Relocation) (indent : String) :
    ∀ n : Node, print indent (n.relocate f) = print indent n
  | .binder b => rfl
  | .unit pos => rfl
  | .number value pos => rfl
  | .string literal pos => rfl
  | .underline pos => rfl
  | .function params body pos => by
      rw [relocate, print, print, paramNames_relocate, print_relocate f indent body]
  | .template params body pos => rfl
  | .operator op => rfl
  | .negative n => by
      rw [relocate, print, print, print_relocate f indent n, isPlainPrimary_relocate]
  | .binary left op right => by
      rw [relocate, print, print, print_relocate f indent left, print_relocate f indent right]
      simp only [isFunction_relocate, regroupsLeft_relocate, regroupsRight_relocate]
      rfl
  | .application child arguments => by
      cases child with
      | binder b =>
          rw [relocate, relocate, print, print, printArguments_relocate f indent arguments]
          rfl
      | _ => rfl
  | .enclosed form stmts => by
      rw [relocate, print, print, all_isNull_relocate, printLines_relocate f indent stmts]
  | .null => rfl
  | .conditional condition thenBlock elseBlock => by
      rw [relocate, print, print, print_relocate f indent condition,
        print_relocate f indent thenBlock, printElse_relocate f indent elseBlock,
        isPlainCondition_relocate]
  | .loop condition body => by
      rw [relocate, print, print, print_relocate f indent condition,
        print_relocate f indent body, isPlainCondition_relocate]
  | .binding form named params codes => by
      rw [relocate, print, print, print_relocate f indent codes]
      simp only [bindingSource_relocate]
  | .native tag params => rfl
  | .datum value => rfl
  | .tuple items => rfl

theorem printElse_relocate (f : Relocation) (indent : String) :
    ∀ n : Option Node, printElse indent (relocateOption f n) = printElse indent n
  | none => rfl
  | some n => by rw [relocateOption, printElse, printElse, print_relocate f indent n]

theorem printArguments_relocate (f : Relocation) (indent : String) :
    ∀ ns : List Node, printArguments indent (relocateAll f ns) = printArguments indent ns
  | [] => rfl
  | n :: rest => by
      rw [relocateAll, printArguments, printArguments, print_relocate f indent n,
        printArguments_relocate f indent rest, isPlainArgument_relocate]

theorem printLines_relocate (f : Relocation) (indent : String) :
    ∀ ns : List Node, printLines indent (relocateAll f ns) = printLines indent ns
  | [] => rfl
  | n :: rest => by
      cases hn : n.isNull with
      | true =>
          cases n with
          | null =>
              rw [relocateAll, relocate, printLines, printLines,
                printLines_relocate f indent rest]
          | _ => exact nomatch hn
      | false =>
          rw [relocateAll, printLines_cons ((isNull_relocate f n).trans hn), printLines_cons hn,
            print_relocate f indent n, printLines_relocate f indent rest]

end

end Node

/-! ## Agreement taken apart -/

namespace Record

theorem allAgree_zip : ∀ {names : List String} {as bs : List Record},
    as.length = names.length → bs.length = names.length →
      fieldsAgree (names.zip as) (names.zip bs) = true → allAgree as bs = true := by
  intro names
  induction names with
  | nil =>
      intro as bs ha hb _
      rw [List.eq_nil_of_length_eq_zero ha, List.eq_nil_of_length_eq_zero hb]
      rfl
  | cons name names ih =>
      intro as bs ha hb h
      cases as with
      | nil => exact nomatch ha
      | cons a as =>
          cases bs with
          | nil => exact nomatch hb
          | cons b bs =>
              obtain ⟨hhead, htail⟩ := Bool.and_eq_true_iff.mp h
              exact allAgree_cons (Bool.and_eq_true_iff.mp hhead).2
                (ih (Nat.succ.inj ha) (Nat.succ.inj hb) htail)

/-- Records of one kind that agree have values that do, if they have a value for each field. -/
theorem make_values {kind : Kind} {pos pos' : Option Position} {as bs : List Record}
    (ha : as.length = kind.fields.length) (hb : bs.length = kind.fields.length)
    (h : (make kind pos as).agrees (make kind pos' bs) = true) : allAgree as bs = true :=
  allAgree_zip ha hb (Bool.and_eq_true_iff.mp h).2

theorem make_kind {kind kind' : Kind} {pos pos' : Option Position} {as bs : List Record}
    (h : (make kind pos as).agrees (make kind' pos' bs) = true) : kind = kind' :=
  beq_iff_eq.mp (Bool.and_eq_true_iff.mp h).1

theorem allAgree_split {a b : Record} {as bs : List Record}
    (h : allAgree (a :: as) (b :: bs) = true) : a.agrees b = true ∧ allAgree as bs = true :=
  Bool.and_eq_true_iff.mp h

theorem sequence_items {as bs : List Record} (h : (sequence as).agrees (sequence bs) = true) :
    allAgree as bs = true := h

theorem ofText_eq {s s' : String} (h : (ofText s).agrees (ofText s') = true) : s = s' :=
  Datum.text.inj (beq_iff_eq.mp h)

theorem integer_eq {v v' : Int} (h : (leaf (.integer v)).agrees (leaf (.integer v')) = true) :
    v = v' :=
  Datum.integer.inj (beq_iff_eq.mp h)

theorem ofBinder_text {b b' : Binder} (h : (ofBinder b).agrees (ofBinder b') = true) :
    b.text = b'.text :=
  ofText_eq (allAgree_split (make_values rfl rfl h)).1

theorem ofOperator_symbol {op op' : Operator}
    (h : (ofOperator op).agrees (ofOperator op') = true) : op.symbol = op'.symbol := by
  have hread : ∀ s : Symbol, Symbol.ofText? s.text = some s := by
    intro s
    cases s <;> decide
  have htext := ofText_eq (allAgree_split (make_values rfl rfl h)).1
  have hsymbol := congrArg Symbol.ofText? htext
  rw [hread, hread] at hsymbol
  exact Option.some.inj hsymbol

end Record

/-! ## Agreement as equality -/

theorem Enclosure.kind_injective {form form' : Enclosure} (h : form.kind = form'.kind) :
    form = form' := by
  cases form <;> cases form' <;> first | rfl | exact nomatch h

theorem BindingForm.kind_injective {form form' : BindingForm} (h : form.kind = form'.kind) :
    form = form' := by
  cases form <;> cases form' <;> first | rfl | exact nomatch h

/-- No point at all. -/
def unplaced : Relocation := fun _ => none

/-- A name without its point is its text. -/
theorem unplaced_names {bs bs' : List Binder} (h : bs.map Binder.text = bs'.map Binder.text) :
    bs.map (Binder.relocate unplaced) = bs'.map (Binder.relocate unplaced) := by
  have hmap : ∀ cs : List Binder, cs.map (Binder.relocate unplaced) =
      (cs.map Binder.text).map fun text => ⟨text, none⟩ := fun cs => by
    rw [List.map_map]
    rfl
  rw [hmap, hmap, h]

/-- Names that agree have the same texts, whatever is made of each. -/
theorem Record.allAgree_texts {record : Binder → Record}
    (hrecord : ∀ {b b' : Binder}, (record b).agrees (record b') = true → b.text = b'.text) :
    ∀ {bs bs' : List Binder}, allAgree (bs.map record) (bs'.map record) = true →
      bs.map Binder.text = bs'.map Binder.text := by
  intro bs
  induction bs with
  | nil =>
      intro bs' h
      cases bs' with
      | nil => rfl
      | cons b' bs' => exact nomatch h
  | cons b bs ih =>
      intro bs' h
      cases bs' with
      | nil => exact nomatch h
      | cons b' bs' =>
          obtain ⟨hb, hbs⟩ := allAgree_split h
          rw [List.map_cons, List.map_cons, hrecord hb, ih hbs]

namespace Node

open Record

/-- A node all of whose parts have a source form: no plain values and no sequences, no bound
    parameters, and only names are applied. -/
inductive IsPrintable : Node → Prop
  | name (b : Binder) : IsPrintable (.binder b)
  | number (value : Int) (pos : Option Position) : IsPrintable (.number value pos)
  | string (literal : String) (pos : Option Position) : IsPrintable (.string literal pos)
  | underline (pos : Option Position) : IsPrintable (.underline pos)
  | null : IsPrintable .null
  | negative {n : Node} : IsPrintable n → IsPrintable (.negative n)
  | binary {left right : Node} (op : Operator) : IsPrintable left → IsPrintable right →
      IsPrintable (.binary left op right)
  | application {arguments : List Node} (b : Binder) : (∀ n ∈ arguments, IsPrintable n) →
      IsPrintable (.application (.binder b) arguments)
  | enclosed {stmts : List Node} (form : Enclosure) : (∀ n ∈ stmts, IsPrintable n) →
      IsPrintable (.enclosed form stmts)
  | function {body : Node} (params : List Binder) (pos : Option Position) : IsPrintable body →
      IsPrintable (.function (params.map fun b => (b, none)) body pos)
  | conditional {condition thenBlock : Node} : IsPrintable condition → IsPrintable thenBlock →
      IsPrintable (.conditional condition thenBlock none)
  | conditionalElse {condition thenBlock elseBlock : Node} : IsPrintable condition →
      IsPrintable thenBlock → IsPrintable elseBlock →
      IsPrintable (.conditional condition thenBlock (some elseBlock))
  | loop {condition body : Node} : IsPrintable condition → IsPrintable body →
      IsPrintable (.loop condition body)
  | binding {codes : Node} (form : BindingForm) (named : Binder)
      (params : Option (List Binder)) : IsPrintable codes →
      IsPrintable (.binding form named params codes)

mutual

theorem IsExpr.printable : ∀ {n : Node}, n.IsExpr → n.IsPrintable
  | _, .name _ => .name _
  | _, .number pos _ => .number _ pos
  | _, .string pos _ => .string _ pos
  | _, .negative hn => .negative hn.printable
  | _, .binary hl _ hr => .binary _ hl.printable hr.printable
  | _, .application _ _ hall => .application _ fun n hn => (hall n hn).printable
  | _, .function pos _ _ hb => .function _ pos hb.printable

theorem IsArgument.printable : ∀ {n : Node}, n.IsArgument → n.IsPrintable
  | _, .expr h => h.printable
  | _, .underline pos => .underline pos
  | _, .enclosed form hall => .enclosed form fun n hn => (hall n hn).printable

theorem IsCluster.printable : ∀ {n : Node}, n.IsCluster → n.IsPrintable
  | _, .expr h => h.printable
  | _, .enclosed form hall => .enclosed form fun n hn => (hall n hn).printable

theorem IsStmt.printable : ∀ {n : Node}, n.IsStmt → n.IsPrintable
  | _, .cluster h => h.printable
  | _, .conditional hc ht => .conditional hc.printable ht.printable
  | _, .conditionalElse hc ht he => .conditionalElse hc.printable ht.printable he.printable
  | _, .loop hc hb => .loop hc.printable hb.printable
  | _, .binding form _ _ hc => .binding form _ _ hc.printable

end

theorem IsEntry.printable {n : Node} (h : n.IsEntry) : n.IsPrintable := by
  rcases h with rfl | h
  · exact .null
  · exact h.printable

/-- A printable node is no plain value. -/
theorem IsPrintable.not_leaf {n : Node} (h : n.IsPrintable) (value : Datum) :
    (leaf value).agrees n.toRecord = false ∧ n.toRecord.agrees (leaf value) = false := by
  cases h <;> exact ⟨rfl, rfl⟩

/-- Parameters of bindings that agree are the same names, or are missing on both sides. -/
theorem unplaced_params {params params' : Option (List Binder)}
    (h : ((params.map ofBinders).getD (leaf .none)).agrees
      ((params'.map ofBinders).getD (leaf .none)) = true) :
    params.map (fun bs => bs.map (Binder.relocate unplaced)) =
      params'.map fun bs => bs.map (Binder.relocate unplaced) := by
  cases params with
  | none =>
      cases params' with
      | none => rfl
      | some bs' => exact nomatch h
  | some bs =>
      cases params' with
      | none => exact nomatch h
      | some bs' =>
          exact congrArg some (unplaced_names (allAgree_texts ofBinder_text (sequence_items h)))

/-- Agreement, given it for parts, is equality but for points. -/
theorem unplaced_all {ns : List Node} : ∀ {ms : List Node},
    (∀ n ∈ ns, ∀ {m : Node}, m.IsPrintable → n.agrees m = true →
      n.relocate unplaced = m.relocate unplaced) →
    (∀ m ∈ ms, m.IsPrintable) → Node.allAgree ns ms = true →
      relocateAll unplaced ns = relocateAll unplaced ms := by
  induction ns with
  | nil =>
      intro ms _ _ h
      cases ms with
      | nil => rfl
      | cons m ms => exact nomatch h
  | cons n ns ih =>
      intro ms hns hms h
      cases ms with
      | nil => exact nomatch h
      | cons m ms =>
          obtain ⟨hn, hmore⟩ := List.forall_mem_cons.mp hns
          obtain ⟨hm, hms⟩ := List.forall_mem_cons.mp hms
          obtain ⟨hhead, htail⟩ := allAgree_split h
          rw [relocateAll, relocateAll, hn hm hhead, ih hmore hms htail]

/-- Statements between brackets agree if the brackets are the same and the statements agree. -/
theorem enclosed_parts {form form' : Enclosure} {stmts stmts' : List Node}
    (h : (enclosed form stmts).agrees (enclosed form' stmts') = true) :
    form = form' ∧ Node.allAgree stmts stmts' = true := by
  obtain rfl := Enclosure.kind_injective (make_kind h)
  have hlength : 1 = form.kind.fields.length := by cases form <;> rfl
  have hvalues : Record.allAgree [.sequence (recordsOf stmts)]
      [.sequence (recordsOf stmts')] = true := make_values hlength hlength h
  exact ⟨rfl, sequence_items (allAgree_split hvalues).1⟩

/-- Bindings agree if their words are the same and their parts agree. -/
theorem binding_parts {form form' : BindingForm} {named named' : Binder}
    {params params' : Option (List Binder)} {codes codes' : Node}
    (h : (binding form named params codes).agrees (binding form' named' params' codes') = true) :
    form = form' ∧ (ofBinder named).agrees (ofBinder named') = true ∧
      ((params.map ofBinders).getD (leaf .none)).agrees
        ((params'.map ofBinders).getD (leaf .none)) = true ∧ codes.agrees codes' = true := by
  obtain rfl := BindingForm.kind_injective (make_kind h)
  have hlength : 3 = form.kind.fields.length := by cases form <;> rfl
  have hvalues : Record.allAgree
      [ofBinder named, (params.map ofBinders).getD (leaf .none), codes.toRecord]
      [ofBinder named', (params'.map ofBinders).getD (leaf .none), codes'.toRecord] = true :=
    make_values hlength hlength h
  obtain ⟨hnamed, hmore⟩ := allAgree_split hvalues
  obtain ⟨hparams, hmore⟩ := allAgree_split hmore
  exact ⟨rfl, hnamed, hparams, (allAgree_split hmore).1⟩

/-- **AGREEMENT**: printable trees that agree are equal but for their points. -/
theorem agrees_unplaced {n : Node} (hn : n.IsPrintable) : ∀ {m : Node}, m.IsPrintable →
    n.agrees m = true → n.relocate unplaced = m.relocate unplaced := by
  induction hn with
  | name b =>
      intro m hm h
      cases hm with
      | name b' =>
          rw [relocate, relocate, Binder.relocate, Binder.relocate, ofBinder_text h]
          rfl
      | enclosed form' _ | binding form' _ _ _ => cases form' <;> exact nomatch h
      | _ => exact nomatch h
  | number value pos =>
      intro m hm h
      cases hm with
      | number value' pos' =>
          rw [integer_eq (allAgree_split (make_values rfl rfl h)).1]
          rfl
      | enclosed form' _ | binding form' _ _ _ => cases form' <;> exact nomatch h
      | _ => exact nomatch h
  | string literal pos =>
      intro m hm h
      cases hm with
      | string literal' pos' =>
          rw [ofText_eq (allAgree_split (make_values rfl rfl h)).1]
          rfl
      | enclosed form' _ | binding form' _ _ _ => cases form' <;> exact nomatch h
      | _ => exact nomatch h
  | underline pos =>
      intro m hm h
      cases hm with
      | underline pos' => rfl
      | enclosed form' _ | binding form' _ _ _ => cases form' <;> exact nomatch h
      | _ => exact nomatch h
  | null =>
      intro m hm h
      cases hm with
      | null => rfl
      | enclosed form' _ | binding form' _ _ _ => cases form' <;> exact nomatch h
      | _ => exact nomatch h
  | negative _ ih =>
      intro m hm h
      cases hm with
      | negative hm =>
          rw [relocate, relocate, ih hm (allAgree_split (make_values rfl rfl h)).1]
      | enclosed form' _ | binding form' _ _ _ => cases form' <;> exact nomatch h
      | _ => exact nomatch h
  | binary op _ _ ihl ihr =>
      intro m hm h
      cases hm with
      | binary op' hl hr =>
          obtain ⟨hleft, h⟩ := allAgree_split (make_values rfl rfl h)
          obtain ⟨hop, h⟩ := allAgree_split h
          rw [relocate, relocate, ihl hl hleft, ihr hr (allAgree_split h).1, Operator.relocate,
            Operator.relocate, ofOperator_symbol hop]
          rfl
      | enclosed form' _ | binding form' _ _ _ => cases form' <;> exact nomatch h
      | _ => exact nomatch h
  | application b _ ih =>
      intro m hm h
      cases hm with
      | application b' hall =>
          obtain ⟨hb, h⟩ := allAgree_split (make_values rfl rfl h)
          have hargs := unplaced_all ih hall (sequence_items (allAgree_split h).1)
          rw [relocate, relocate, hargs, relocate, relocate, Binder.relocate, Binder.relocate,
            ofBinder_text hb]
          rfl
      | enclosed form' _ | binding form' _ _ _ => cases form' <;> exact nomatch h
      | _ => exact nomatch h
  | enclosed form _ ih =>
      intro m hm h
      cases hm with
      | enclosed form' hall =>
          obtain ⟨rfl, hstmts⟩ := enclosed_parts h
          rw [relocate, relocate, unplaced_all ih hall hstmts]
      | binding form' _ _ _ => cases form <;> cases form' <;> exact nomatch h
      | _ => cases form <;> exact nomatch h
  | function params pos _ ih =>
      intro m hm h
      cases hm with
      | function params' pos' hbody =>
          obtain ⟨hparams, h⟩ := allAgree_split (make_values rfl rfl h)
          have hparams := sequence_items hparams
          rw [paramRecords_unbound, paramRecords_unbound] at hparams
          have htexts := allAgree_texts
            (fun hb => ofBinder_text (allAgree_split (sequence_items hb)).1) hparams
          rw [relocate, relocate, ih hbody (allAgree_split h).1, relocateParams_names,
            relocateParams_names, unplaced_names htexts]
          rfl
      | enclosed form' _ | binding form' _ _ _ => cases form' <;> exact nomatch h
      | _ => exact nomatch h
  | conditional _ _ ihc iht =>
      intro m hm h
      cases hm with
      | conditional hc ht =>
          obtain ⟨hcond, h⟩ := allAgree_split (make_values rfl rfl h)
          rw [relocate, relocate, ihc hc hcond, iht ht (allAgree_split h).1]
      | conditionalElse hc ht he =>
          obtain ⟨-, h⟩ := allAgree_split (make_values rfl rfl h)
          obtain ⟨-, h⟩ := allAgree_split h
          exact absurd (allAgree_split h).1 (Bool.eq_false_iff.mp (he.not_leaf .none).1)
      | enclosed form' _ | binding form' _ _ _ => cases form' <;> exact nomatch h
      | _ => exact nomatch h
  | conditionalElse _ _ he ihc iht ihe =>
      intro m hm h
      cases hm with
      | conditional hc ht =>
          obtain ⟨-, h⟩ := allAgree_split (make_values rfl rfl h)
          obtain ⟨-, h⟩ := allAgree_split h
          exact absurd (allAgree_split h).1 (Bool.eq_false_iff.mp (he.not_leaf .none).2)
      | conditionalElse hc ht he' =>
          obtain ⟨hcond, h⟩ := allAgree_split (make_values rfl rfl h)
          obtain ⟨hthen, h⟩ := allAgree_split h
          rw [relocate, relocate, ihc hc hcond, iht ht hthen, relocateOption, relocateOption,
            ihe he' (allAgree_split h).1]
      | enclosed form' _ | binding form' _ _ _ => cases form' <;> exact nomatch h
      | _ => exact nomatch h
  | loop _ _ ihc ihb =>
      intro m hm h
      cases hm with
      | loop hc hb =>
          obtain ⟨hcond, h⟩ := allAgree_split (make_values rfl rfl h)
          rw [relocate, relocate, ihc hc hcond, ihb hb (allAgree_split h).1]
      | enclosed form' _ | binding form' _ _ _ => cases form' <;> exact nomatch h
      | _ => exact nomatch h
  | binding form named params _ ih =>
      intro m hm h
      cases hm with
      | binding form' named' params' hc =>
          obtain ⟨rfl, hnamed, hparams, hcodes⟩ := binding_parts h
          rw [relocate, relocate, ih hc hcodes, unplaced_params hparams, Binder.relocate,
            Binder.relocate, ofBinder_text hnamed]
          rfl
      | enclosed form' _ => cases form <;> cases form' <;> exact nomatch h
      | _ => cases form <;> exact nomatch h

/-- Printable nodes that agree are printed alike. -/
theorem print_agrees (indent : String) {n m : Node} (hn : n.IsPrintable) (hm : m.IsPrintable)
    (h : n.agrees m = true) : print indent n = print indent m := by
  rw [← print_relocate unplaced indent n, agrees_unplaced hn hm h, print_relocate]

theorem source_agrees {n m : Node} (hn : n.IsPrintable) (hm : m.IsPrintable)
    (h : n.agrees m = true) : n.source = m.source := by
  rw [source, source, print_agrees sourceIndent hn hm h]

/-! ## Programs -/

theorem printProgram_relocate (f : Relocation) (indent : String) :
    ∀ ns : List Node, printProgram indent (relocateAll f ns) = printProgram indent ns := by
  intro ns
  induction ns with
  | nil => rfl
  | cons n ns ih => rw [relocateAll, printProgram, printProgram, ih, print_relocate]

/-- Programs that agree are printed alike. -/
theorem printProgram_agrees (indent : String) {ns ms : List Node} (hns : ∀ n ∈ ns, n.IsPrintable)
    (hms : ∀ m ∈ ms, m.IsPrintable) (h : Node.allAgree ns ms = true) :
    printProgram indent ns = printProgram indent ms := by
  have heq : relocateAll unplaced ns = relocateAll unplaced ms :=
    unplaced_all (fun n hn _ hm => agrees_unplaced (hns n hn) hm) hms h
  rw [← printProgram_relocate unplaced indent ns, heq, printProgram_relocate]

end Node

end BasicSyntax
