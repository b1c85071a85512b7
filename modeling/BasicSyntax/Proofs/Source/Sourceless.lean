import BasicSyntax.Proofs.Source.Level
import BasicSyntax.Record.Source

/-! # Trees without a source form — when printing gives up

    A tree is given as a record whose fields hold what the kinds of node call for
    (`Record.Typed`): expressions, clusters or statements where those are wanted, names,
    operators, plain values.  Nothing is asked of the value of a bound parameter, except that it
    is a tree at all.

    Some nodes have no source form, whatever their parts are (`isSourceless`).  Printing a tree
    gives up exactly if there is such a node anywhere in it (`source_iff`), and it never fails
    in another way.  The steps of printing are judged one by one: `Verdict p step` says that a
    step gives up if `p` holds and has a result if not, from every level.  One step behind the
    other gives up if either does (`Verdict.bind`), so the condition of a tree is put together
    from those of its parts just as its text is.

    Statement lists leave out empty statements and applications do not print what is applied; of
    neither anything could give up. -/

namespace BasicSyntax

namespace Record

/-! ## Trees -/

/-- A name. -/
inductive IsName : Record → Prop
  | intro (place : Option Place) (field text : String) :
      IsName (node .binder place [(field, leaf (.text text))])

/-- An operator of the language. -/
inductive IsOperator : Record → Prop
  | intro (place : Option Place) (field : String) (symbol : Symbol) :
      IsOperator (node .operator place [(field, leaf (.text symbol.text))])

/-- A parameter of a function: a name with any value, which is none while it is not bound. -/
inductive IsParam : Record → Prop
  | intro {b value : Record} : IsName b → value.toNode?.isSome = true →
      IsParam (sequence [b, value])

/-- A tree whose fields hold what their kinds call for, down to numbers that are not too long
    to be written. -/
inductive Typed : Record → Prop
  | name {b : Record} : IsName b → Typed b
  | unit (place : Option Place) : Typed (node .unit place [])
  | number (place : Option Place) (field : String) {value : Int} :
      value.natAbs < 10 ^ Text.digitLimit →
      Typed (node .number place [(field, leaf (.integer value))])
  | string (place : Option Place) (field literal : String) :
      Typed (node .string place [(field, leaf (.text literal))])
  | underline (place : Option Place) : Typed (node .underline place [])
  | function (place : Option Place) (field field' : String) {params : List Record}
      {body : Record} : (∀ p ∈ params, IsParam p) → body.isOfClass Kind.isCluster = true →
      Typed body → Typed (node .function place [(field, sequence params), (field', body)])
  | template (place : Option Place) (field field' : String) {params : List Record}
      {body : Record} : (∀ b ∈ params, IsName b) → body.isOfClass Kind.isCluster = true →
      Typed body → Typed (node .template place [(field, sequence params), (field', body)])
  | operator {op : Record} : IsOperator op → Typed op
  | negative (place : Option Place) (field : String) {primary : Record} :
      primary.isOfClass Kind.isExpr = true → Typed primary →
      Typed (node .negative place [(field, primary)])
  | binary (place : Option Place) (field field' field'' : String) {left op right : Record} :
      left.isOfClass Kind.isExpr = true → right.isOfClass Kind.isExpr = true → IsOperator op →
      Typed left → Typed right →
      Typed (node .binary place [(field, left), (field', op), (field'', right)])
  | application (place : Option Place) (field field' : String) {child : Record}
      {arguments : List Record} : child.isOfClass Kind.isExpr = true →
      (∀ r ∈ arguments, r.isOfClass Kind.isCluster = true) → Typed child →
      (∀ r ∈ arguments, Typed r) →
      Typed (node .application place [(field, child), (field', sequence arguments)])
  | enclosed (form : Enclosure) (place : Option Place) (field : String) {stmts : List Record} :
      (∀ r ∈ stmts, r.isOfClass Kind.isStmt = true) → (∀ r ∈ stmts, Typed r) →
      Typed (node form.kind place [(field, sequence stmts)])
  | null (place : Option Place) : Typed (node .null place [])
  | conditional (place : Option Place) (field field' field'' : String)
      {condition thenBlock : Record} : condition.isOfClass Kind.isExpr = true →
      thenBlock.isOfClass Kind.isCluster = true → Typed condition → Typed thenBlock →
      Typed (node .conditional place
        [(field, condition), (field', thenBlock), (field'', leaf .none)])
  | conditionalElse (place : Option Place) (field field' field'' : String)
      {condition thenBlock elseBlock : Record} : condition.isOfClass Kind.isExpr = true →
      thenBlock.isOfClass Kind.isCluster = true → elseBlock.isOfClass Kind.isCluster = true →
      Typed condition → Typed thenBlock → Typed elseBlock →
      Typed (node .conditional place
        [(field, condition), (field', thenBlock), (field'', elseBlock)])
  | loop (place : Option Place) (field field' : String) {condition body : Record} :
      condition.isOfClass Kind.isExpr = true → body.isOfClass Kind.isCluster = true →
      Typed condition → Typed body → Typed (node .loop place [(field, condition), (field', body)])
  | binding (form : BindingForm) (place : Option Place) (field field' field'' : String)
      {named params codes : Record} : IsName named →
      (params = leaf .none ∨ ∃ names, params = sequence names ∧ ∀ b ∈ names, IsName b) →
      codes.isOfClass Kind.isCluster = true → Typed codes →
      Typed (node form.kind place [(field, named), (field', params), (field'', codes)])
  | native (place : Option Place) (field field' tag : String) {params : List Record} :
      (∀ b ∈ params, IsName b) →
      Typed (node .native place [(field, leaf (.text tag)), (field', sequence params)])

/-! ## Nodes without a source form -/

mutual

/-- The nodes in a record, with the record itself if it is one. -/
def parts : Record → List Record
  | leaf _ => []
  | sequence items => partsOf items
  | node kind place fields => node kind place fields :: partsOfFields fields

/-- The nodes in records. -/
def partsOf : List Record → List Record
  | [] => []
  | item :: rest => parts item ++ partsOf rest

/-- The nodes in fields. -/
def partsOfFields : List (String × Record) → List Record
  | [] => []
  | (_, value) :: rest => parts value ++ partsOfFields rest

end

/-- Whether a parameter has a value. -/
def isBound : Record → Bool
  | sequence [_, value] => !value.isNone
  | _ => false

/-- Whether a node has no source form, whatever its parts are: the value that stands for no
    value, templates as values, operations that an evaluator provides, functions with a bound
    parameter, and applications of anything but a name. -/
def isSourceless : Record → Bool
  | node .unit _ _ | node .template _ _ | node .native _ _ => true
  | node .function _ ((_, sequence params) :: _) => params.any isBound
  | node .application _ ((_, child) :: _) => !child.isOfKind .binder
  | _ => false

/-- A record has a node without a source form in it. -/
def Sourceless (r : Record) : Prop := ∃ part ∈ r.parts, part.isSourceless = true

theorem not_sourceless_leaf (value : Datum) : ¬ (leaf value).Sourceless := nofun

theorem sourceless_sequence {items : List Record} :
    (sequence items).Sourceless ↔ ∃ r ∈ items, r.Sourceless := by
  rw [Sourceless, parts]
  induction items with
  | nil => simp [partsOf]
  | cons item rest ih =>
      rw [partsOf, List.exists_mem_cons_iff, ← ih]
      simp only [List.mem_append, or_and_right, exists_or, Sourceless]

theorem sourceless_fields {fields : List (String × Record)} :
    (∃ part ∈ partsOfFields fields, part.isSourceless = true) ↔
      ∃ f ∈ fields, f.2.Sourceless := by
  induction fields with
  | nil => simp [partsOfFields]
  | cons f rest ih =>
      rw [partsOfFields, List.exists_mem_cons_iff, ← ih]
      simp only [List.mem_append, or_and_right, exists_or, Sourceless]

/-- A node without a source form is in a node exactly if it is the node or in one of its
    fields. -/
theorem sourceless_node {kind : Kind} {place : Option Place} {fields : List (String × Record)} :
    (node kind place fields).Sourceless ↔
      (node kind place fields).isSourceless = true ∨ ∃ f ∈ fields, f.2.Sourceless := by
  rw [Sourceless, parts, List.exists_mem_cons_iff, sourceless_fields]

end Record

/-- Empty statements have no lines. -/
theorem Node.printLines_nulls {indent : String} : ∀ stmts : List Node,
    stmts.all isNull = true → printLines indent stmts = pure []
  | [], _ => rfl
  | null :: rest, h => printLines_nulls rest h

/-! ## Verdicts on steps of printing -/

namespace Printing

variable {α β : Type} {p q : Prop}

/-- A step of printing gives up for want of a source form if something holds and has a result if
    not, from every level. -/
def Verdict (p : Prop) (step : Printing α) : Prop :=
  ∀ level, (p → ∃ why, (step level).1 = .error (.noSource why)) ∧
    (¬ p → ∃ a, (step level).1 = .ok a)

theorem verdict_pure (h : ¬ p) (a : α) : Verdict p (pure a : Printing α) :=
  fun _ => ⟨fun hp => absurd hp h, fun _ => ⟨a, rfl⟩⟩

theorem verdict_noSource (h : p) (why : NoSource) : Verdict p (noSource why : Printing α) :=
  fun _ => ⟨fun _ => ⟨why, rfl⟩, fun hp => absurd h hp⟩

theorem verdict_number (h : ¬ p) {value : Int} (hvalue : Text.isWritable value = true) :
    Verdict p (number value) := by
  rw [number_writable hvalue]
  exact verdict_pure h _

theorem verdict_margin (h : ¬ p) (indent : String) : Verdict p (margin indent) :=
  fun _ => ⟨fun hp => absurd hp h, fun _ => ⟨_, rfl⟩⟩

theorem Verdict.congr {step : Printing α} (h : Verdict p step) (hpq : q ↔ p) : Verdict q step :=
  fun level => ⟨fun hq => (h level).1 (hpq.mp hq), fun hq => (h level).2 (mt hpq.mpr hq)⟩

/-- Two steps give up if either does. -/
theorem Verdict.bind {step : Printing α} {next : α → Printing β} (h : Verdict p step)
    (hnext : ∀ a, Verdict q (next a)) : Verdict (p ∨ q) (step >>= next) := by
  intro level
  rw [bind_run]
  by_cases hp : p
  · obtain ⟨why, hwhy⟩ := (h level).1 hp
    rw [hwhy]
    exact ⟨fun _ => ⟨why, rfl⟩, fun hno => absurd (.inl hp) hno⟩
  · obtain ⟨a, ha⟩ := (h level).2 hp
    rw [ha]
    exact ⟨fun hpq => (hnext a _).1 (hpq.resolve_left hp),
      fun hno => (hnext a _).2 fun hq => hno (.inr hq)⟩

/-- What is made of a result makes no difference. -/
theorem Verdict.map {step : Printing α} (h : Verdict p step) (f : α → β) :
    Verdict p (step >>= fun a => pure (f a)) :=
  (h.bind fun a => verdict_pure not_false (f a)).congr (iff_of_eq (or_false p)).symm

theorem Verdict.deeper {step : Printing α} (h : Verdict p step) : Verdict p (deeper step) :=
  fun level => h (level + 1)

/-- A step that has a result has no reason to give up. -/
theorem Verdict.not_pure {a : α} (h : Verdict p (pure a : Printing α)) : ¬ p := by
  intro hp
  obtain ⟨why, hwhy⟩ := (h 0).1 hp
  exact nomatch hwhy

/-- Brackets give up if their lines do.  Without any lines there is nothing in them that could,
    although they are printed without a look at the statements. -/
theorem verdict_enclosed {indent : String} {stmts : List Node}
    (h : Verdict p (Node.printLines indent stmts)) (form : Enclosure) :
    Verdict p (Node.print indent (.enclosed form stmts)) := by
  by_cases hall : stmts.all Node.isNull = true
  · rw [Node.printLines_nulls stmts hall] at h
    rw [Node.print, if_pos hall]
    exact verdict_pure h.not_pure _
  · rw [Node.print_enclosed hall]
    exact (h.deeper.bind fun _ => (verdict_margin not_false indent).map _).congr
      (iff_of_eq (or_false p)).symm

end Printing

/-! ## Parts of records, read as those of nodes -/

namespace Record

variable {indent : String} {r : Record}

theorem IsName.reads (h : IsName r) :
    ∃ b : Binder, r.toBinder? = some b ∧ r.toNode? = some (.binder b) := by
  cases h with
  | intro place field text => exact ⟨_, rfl, rfl⟩

theorem IsName.not_sourceless (h : IsName r) : ¬ r.Sourceless := by
  cases h with
  | intro place field text => simp [sourceless_node, isSourceless, not_sourceless_leaf]

theorem IsOperator.reads (h : IsOperator r) :
    ∃ op : Operator, r.toOperator? = some op ∧ r.toNode? = some (.operator op) := by
  cases h with
  | intro place field symbol =>
      have hsymbol : Symbol.ofText? symbol.text = some symbol := by cases symbol <;> decide
      simp [toNode?, toOperator?, hsymbol]

theorem IsOperator.not_sourceless (h : IsOperator r) : ¬ r.Sourceless := by
  cases h with
  | intro place field symbol => simp [sourceless_node, isSourceless, not_sourceless_leaf]

theorem names_read : ∀ {names : List Record}, (∀ b ∈ names, IsName b) →
    ∃ bs, (sequence names).toBinders? = some bs
  | [], _ => ⟨[], rfl⟩
  | b :: rest, h => by
      obtain ⟨hb, hrest⟩ := List.forall_mem_cons.mp h
      obtain ⟨b', hb', -⟩ := hb.reads
      obtain ⟨bs, hbs⟩ := names_read hrest
      rw [toBinders?] at hbs
      exact ⟨b' :: bs, by simp [toBinders?, hb', hbs]⟩

theorem names_not_sourceless {names : List Record} (h : ∀ b ∈ names, IsName b) :
    ¬ (sequence names).Sourceless := by
  rw [sourceless_sequence]
  rintro ⟨b, hb, hsourceless⟩
  exact (h b hb).not_sourceless hsourceless

theorem params_read {params : Record}
    (h : params = leaf .none ∨ ∃ names, params = sequence names ∧ ∀ b ∈ names, IsName b) :
    (∃ ps, params.toParams? = some ps) ∧ ¬ params.Sourceless := by
  rcases h with rfl | ⟨names, rfl, hnames⟩
  · exact ⟨⟨none, rfl⟩, not_sourceless_leaf _⟩
  · obtain ⟨bs, hbs⟩ := names_read hnames
    exact ⟨⟨some bs, by simp [toParams?, hbs]⟩, names_not_sourceless hnames⟩

/-- Parameters are named unless one of them is bound. -/
theorem params_named : ∀ {params : List Record}, (∀ p ∈ params, IsParam p) →
    ∃ ps, toFunctionParams? params = some ps ∧
      ((params.any isBound = true ∧ ∃ why, Node.paramNames ps = .error why) ∨
        (params.any isBound = false ∧ ¬ (sequence params).Sourceless ∧
          ∃ names, Node.paramNames ps = .ok names))
  | [], _ => ⟨[], rfl, .inr ⟨rfl, by simp [sourceless_sequence], [], rfl⟩⟩
  | param :: rest, h => by
      obtain ⟨hparam, hrest⟩ := List.forall_mem_cons.mp h
      obtain ⟨ps, hps, hnamed⟩ := params_named hrest
      cases hparam with
      | @intro b value hb hvalue =>
          obtain ⟨b', hb', -⟩ := hb.reads
          obtain ⟨n, hn⟩ := Option.isSome_iff_exists.mp hvalue
          by_cases hnone : value = leaf .none
          · subst hnone
            refine ⟨(b', none) :: ps, by simp [toFunctionParams?, hb', hps], ?_⟩
            rcases hnamed with ⟨hany, why, hwhy⟩ | ⟨hany, hrest', names, hnames⟩
            · exact .inl ⟨by simp [hany], why, by simp [Node.paramNames, hwhy, Except.map]⟩
            · refine .inr ⟨by simp [hany, isBound, isNone], ?_, b'.text :: names,
                by simp [Node.paramNames, hnames, Except.map]⟩
              rw [sourceless_sequence] at hrest' ⊢
              simpa [sourceless_sequence, hb.not_sourceless, not_sourceless_leaf] using hrest'
          · have hbound : isBound (sequence [b, value]) = true := by
              cases value with
              | leaf value => cases value <;> first | rfl | exact absurd rfl hnone
              | sequence items => rfl
              | node kind place fields => rfl
            refine ⟨(b', some n) :: ps, ?_, .inl ⟨by simp [hbound], _, rfl⟩⟩
            rw [toFunctionParams?, hb', hps, hn]
            · rfl
            · exact hnone

theorem toNode?_binder {b : Binder} (h : r.toNode? = some (.binder b)) :
    r.isOfKind .binder = true := by
  unfold toNode? at h
  split at h <;> simp_all [isOfKind, Option.bind_eq_some_iff]

/-- A record is a node's, and printing the node gives up exactly if there is a node without a
    source form in the record. -/
def Judged (indent : String) (r : Record) : Prop :=
  ∃ n, r.toNode? = some n ∧ Printing.Verdict r.Sourceless (n.print indent)

open Printing in
/-- Records that are judged are judged together, as arguments and as statements. -/
theorem judged_items : ∀ {items : List Record}, (∀ r ∈ items, Judged indent r) →
    ∃ ns, toNodes? items = some ns ∧
      Verdict (sequence items).Sourceless (Node.printArguments indent ns) ∧
      Verdict (sequence items).Sourceless (Node.printLines indent ns)
  | [], _ => by
      have hnone : ¬ (sequence []).Sourceless := by simp [sourceless_sequence]
      exact ⟨[], rfl, verdict_pure hnone [], verdict_pure hnone []⟩
  | r :: rest, h => by
      obtain ⟨⟨n, hn, hprint⟩, hrest⟩ := List.forall_mem_cons.mp h
      obtain ⟨ns, hns, harguments, hlines⟩ := judged_items hrest
      have hcons : (sequence (r :: rest)).Sourceless ↔
          r.Sourceless ∨ (sequence rest).Sourceless := by
        rw [sourceless_sequence, List.exists_mem_cons_iff, ← sourceless_sequence]
      refine ⟨n :: ns, by simp [toNodes?, hn, hns],
        (hprint.bind fun _ => harguments.map _).congr hcons, ?_⟩
      cases hnull : n.isNull with
      | true =>
          obtain rfl : n = .null := by
            cases n <;> first | rfl | exact Bool.noConfusion hnull
          have hr : ¬ r.Sourceless := hprint.not_pure
          exact hlines.congr (hcons.trans (or_iff_right hr))
      | false =>
          rw [Node.printLines_cons hnull]
          refine ((verdict_margin not_false indent).bind fun _ =>
            hprint.bind fun _ => hlines.map _).congr ?_
          rw [hcons, false_or]

theorem IsName.judged (h : IsName r) : Judged indent r := by
  obtain ⟨b, -, hb⟩ := h.reads
  exact ⟨_, hb, Printing.verdict_pure h.not_sourceless b.text⟩

theorem IsOperator.judged (h : IsOperator r) : Judged indent r := by
  obtain ⟨op, -, hop⟩ := h.reads
  exact ⟨_, hop, Printing.verdict_pure h.not_sourceless op.symbol.text⟩

/-- Whether an operand is a name is seen on the record and on the node alike. -/
theorem Typed.child (h : r.Typed) (hr : r.isOfKind .binder = true) : IsName r := by
  cases h with
  | name h => exact h
  | operator h => exact nomatch h, hr
  | enclosed form => cases form <;> exact nomatch hr
  | binding form => cases form <;> exact nomatch hr
  | _ => exact nomatch hr

open Printing in
/-- Every tree is judged. -/
theorem Typed.judged (h : r.Typed) : Judged indent r := by
  induction h with
  | name h => exact h.judged
  | operator h => exact h.judged
  | unit place => exact ⟨_, rfl, verdict_noSource (sourceless_node.mpr (.inl rfl)) _⟩
  | number place field hshort =>
      exact ⟨_, rfl, verdict_number
        (by simp [sourceless_node, isSourceless, not_sourceless_leaf])
        (Text.isWritable_iff.mpr hshort)⟩
  | string place field literal =>
      exact ⟨_, rfl, verdict_pure (by simp [sourceless_node, isSourceless, not_sourceless_leaf]) _⟩
  | underline place =>
      exact ⟨_, rfl, verdict_pure (by simp [sourceless_node, isSourceless]) _⟩
  | null place =>
      exact ⟨_, rfl, verdict_pure (by simp [sourceless_node, isSourceless]) _⟩
  | function place field field' hparams _ _ ih =>
      obtain ⟨n, hn, hprint⟩ := ih
      obtain ⟨ps, hps, hnamed⟩ := params_named hparams
      refine ⟨.function ps n (posOf place), by simp [toNode?, hps, hn], ?_⟩
      rw [Node.print]
      rcases hnamed with ⟨hany, why, hwhy⟩ | ⟨hany, hparams, names, hnames⟩
      · rw [hwhy]
        exact verdict_noSource (sourceless_node.mpr (.inl (by simpa [isSourceless] using hany))) why
      · rw [hnames]
        exact (hprint.map _).congr (by simp [sourceless_node, isSourceless, hany, hparams])
  | template place field field' hparams _ _ ih =>
      obtain ⟨n, hn, -⟩ := ih
      obtain ⟨bs, hbs⟩ := names_read hparams
      exact ⟨.template bs n (posOf place), by simp [toNode?, hbs, hn],
        verdict_noSource (sourceless_node.mpr (.inl rfl)) _⟩
  | negative place field _ _ ih =>
      obtain ⟨n, hn, hprint⟩ := ih
      exact ⟨.negative n, by simp [toNode?, hn],
        (hprint.map _).congr (by simp [sourceless_node, isSourceless])⟩
  | binary place field field' field'' _ _ hop _ _ ihLeft ihRight =>
      obtain ⟨left, hleft, hprintLeft⟩ := ihLeft
      obtain ⟨right, hright, hprintRight⟩ := ihRight
      obtain ⟨op, hop', -⟩ := hop.reads
      exact ⟨.binary left op right, by simp [toNode?, hleft, hop', hright],
        (hprintLeft.bind fun _ => hprintRight.map _).congr
          (by simp [sourceless_node, isSourceless, hop.not_sourceless])⟩
  | @application place field field' child arguments _ _ hchild _ ihChild ihArguments =>
      obtain ⟨n, hn, -⟩ := ihChild
      obtain ⟨ns, hns, harguments, -⟩ := judged_items ihArguments
      refine ⟨.application n ns, by simp [toNode?, hn, hns], ?_⟩
      cases hr : child.isOfKind .binder with
      | true =>
          have hname := hchild.child hr
          obtain ⟨b, -, hb⟩ := hname.reads
          obtain rfl : Node.binder b = n := Option.some.inj (hb.symm.trans hn)
          exact (harguments.map _).congr
            (by simp [sourceless_node, isSourceless, hr, hname.not_sourceless])
      | false =>
          rw [Node.print]
          · exact verdict_noSource (sourceless_node.mpr (.inl (by simp [isSourceless, hr]))) _
          · rintro b rfl
            exact Bool.noConfusion (hr.symm.trans (toNode?_binder hn))
  | enclosed form place field _ _ ih =>
      obtain ⟨ns, hns, -, hlines⟩ := judged_items ih
      exact ⟨.enclosed form ns, by cases form <;> simp [Enclosure.kind, toNode?, hns],
        (verdict_enclosed hlines form).congr
          (by cases form <;> simp [Enclosure.kind, sourceless_node, isSourceless])⟩
  | conditional place field field' field'' _ _ _ _ ihCondition ihThen =>
      obtain ⟨condition, hcondition, hprintCondition⟩ := ihCondition
      obtain ⟨thenBlock, hthen, hprintThen⟩ := ihThen
      refine ⟨.conditional condition thenBlock none, by simp [toNode?, hcondition, hthen], ?_⟩
      exact (hprintCondition.bind fun _ => hprintThen.bind fun _ =>
          (verdict_pure not_false "").map _).congr
        (by simp [sourceless_node, isSourceless, not_sourceless_leaf])
  | conditionalElse place field field' field'' _ _ helse _ _ _ ihCondition ihThen ihElse =>
      obtain ⟨condition, hcondition, hprintCondition⟩ := ihCondition
      obtain ⟨thenBlock, hthen, hprintThen⟩ := ihThen
      obtain ⟨elseBlock, helse', hprintElse⟩ := ihElse
      refine ⟨.conditional condition thenBlock (some elseBlock), ?_, ?_⟩
      · rw [toNode?, hcondition, hthen, helse']
        · rfl
        · rintro rfl
          exact nomatch helse
      · exact (hprintCondition.bind fun _ => hprintThen.bind fun _ =>
            (hprintElse.map _).map _).congr
          (by simp [sourceless_node, isSourceless])
  | loop place field field' _ _ _ _ ihCondition ihBody =>
      obtain ⟨condition, hcondition, hprintCondition⟩ := ihCondition
      obtain ⟨body, hbody, hprintBody⟩ := ihBody
      exact ⟨.loop condition body, by simp [toNode?, hcondition, hbody],
        (hprintCondition.bind fun _ => hprintBody.map _).congr
          (by simp [sourceless_node, isSourceless])⟩
  | binding form place field field' field'' hnamed hparams _ _ ih =>
      obtain ⟨codes, hcodes, hprint⟩ := ih
      obtain ⟨b, hb, -⟩ := hnamed.reads
      obtain ⟨⟨ps, hps⟩, hparams⟩ := params_read hparams
      exact ⟨.binding form b ps codes,
        by cases form <;> simp [BindingForm.kind, toNode?, hb, hps, hcodes],
        (hprint.map _).congr (by
          cases form <;>
            simp [BindingForm.kind, sourceless_node, isSourceless, hnamed.not_sourceless, hparams])⟩
  | native place field field' tag hparams =>
      obtain ⟨bs, hbs⟩ := names_read hparams
      exact ⟨.native tag bs, by simp [toNode?, hbs],
        verdict_noSource (sourceless_node.mpr (.inl rfl)) _⟩

/-- **NO SOURCE FORM**: printing a tree gives up exactly if there is a node without a source
    form anywhere in it.  Printing any other tree comes to a text, so nothing else can go wrong
    with either. -/
theorem source_iff (r : Record) (h : r.Typed) (indent : String) (level : Nat) :
    ((∃ why, (r.source indent level).1 = .error (.noSource why)) ↔ r.Sourceless) ∧
      (¬ r.Sourceless → ∃ text, (r.source indent level).1 = .ok (ofText text)) := by
  have hjudged : Judged indent r := h.judged
  obtain ⟨n, hn, hprint⟩ := hjudged
  obtain ⟨hsourceless, hsource⟩ := hprint level
  by_cases hr : r.Sourceless
  · obtain ⟨why, hwhy⟩ := hsourceless hr
    have hrefused : (r.source indent level).1 = .error (.noSource why) := by
      have hrun : n.print indent level = (.error (.noSource why), (n.print indent level).2) :=
        Prod.ext hwhy rfl
      simp only [source, hn]
      rw [hrun]
      rfl
    exact ⟨iff_of_true ⟨why, hrefused⟩ hr, fun hno => absurd hr hno⟩
  · obtain ⟨text, htext⟩ := hsource hr
    have hprinted : (r.source indent level).1 = .ok (ofText text) := by
      have hrun : n.print indent level = (.ok text, (n.print indent level).2) := Prod.ext htext rfl
      simp only [source, hn]
      rw [hrun]
    refine ⟨iff_of_false (fun hrefused => ?_) hr, fun _ => ⟨text, hprinted⟩⟩
    obtain ⟨why, hwhy⟩ := hrefused
    cases hprinted.symm.trans hwhy

/-- A loop around an empty statement and another, which is a name or the value that stands for
    no value. -/
theorem source_iff_loop :
    let loop := fun part => node .loop none
      [("condition", node .number none [("value", leaf (.integer 1))]),
        ("body", node .block none [("stmts", sequence [node .null none [], part])])]
    let name := loop (node .binder none [("text", leaf (.text "a"))])
    let sourceless := loop (node .unit none [])
    name.Typed ∧ sourceless.Typed ∧
      (∃ text, (name.source Node.sourceIndent 0).1 = .ok (ofText text)) ∧
      ∃ why, (sourceless.source Node.sourceIndent 0).1 = .error (.noSource why) := by
  intro loop name sourceless
  have htyped : ∀ part : Record, part.isOfClass Kind.isStmt = true → part.Typed →
      (loop part).Typed := by
    intro part hclass hpart
    refine .loop none _ _ rfl rfl (.number none _ (Nat.one_lt_pow (by decide) (by decide)))
      (.enclosed .block none _ ?_ ?_)
    · exact List.forall_mem_cons.mpr ⟨rfl, List.forall_mem_singleton.mpr hclass⟩
    · exact List.forall_mem_cons.mpr ⟨.null none, List.forall_mem_singleton.mpr hpart⟩
  have hname : name.Typed := htyped _ rfl (.name (.intro none "text" "a"))
  have hsourceless : sourceless.Typed := htyped _ rfl (.unit none)
  refine ⟨hname, hsourceless, (source_iff name hname _ 0).2 ?_,
    (source_iff sourceless hsourceless _ 0).1.mpr ?_⟩
  · simp [name, loop, sourceless_node, sourceless_sequence, isSourceless, not_sourceless_leaf]
  · simp [sourceless, loop, sourceless_node, sourceless_sequence, isSourceless]

end Record

end BasicSyntax
