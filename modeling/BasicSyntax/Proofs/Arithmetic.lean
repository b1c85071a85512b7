import BasicSyntax.Proofs.RoundTrip

/-! # Arithmetic — a formula is read as a tree of its value

    A formula is a run of operands joined by plus, minus and times.  An operand is a numeral or a
    formula in round brackets, with one minus before it or none, and filler may stand before
    every token.  The value of a formula is told from how it is written, with no tree in sight:
    the products between its plus and minus signs are added and taken away from left to right
    (`total`).

    The tree that a formula is read as has this value (`read_value`).  The run of the formula is
    read as a run of the grammar with operands of the same values (`Formula.reads`).  Its fold
    has the value of the same fold over numbers, and that one, at every point of the run, holds
    a sum back and a product that is still open (`Pending`). -/

namespace BasicSyntax

open Grammar

/-! ## The value of a tree -/

/-- What an operator of arithmetic makes of two numbers. -/
def Symbol.result? : Symbol → Int → Int → Option Int
  | plus, left, right => some (left + right)
  | minus, left, right => some (left - right)
  | times, left, right => some (left * right)
  | _, _, _ => none

/-- The value of a tree of numbers; other trees have none. -/
def Node.evaluate? : Node → Option Int
  | .number value _ => some value
  | .negative primary => primary.evaluate?.map (- ·)
  | .binary left op right => do op.symbol.result? (← left.evaluate?) (← right.evaluate?)
  | _ => none

namespace Arithmetic

/-! ## Formulas -/

/-- Filler between two tokens, or nothing. -/
structure Gap where
  text : String
  filler : ∀ c ∈ text.toList, Text.isFiller c = true

/-- A number as it is written, not too long to be read. -/
structure Numeral where
  text : String
  writes : Terminal.number.Writes text.toList
  short : text.length ≤ Text.digitLimit

/-- What joins two operands of a formula. -/
inductive Joint
  | plus
  | minus
  | times

/-- The operator that a joint is. -/
def Joint.symbol : Joint → Symbol
  | plus => .plus
  | minus => .minus
  | times => .times

mutual

/-- An operand, its sign apart. -/
inductive Operand
  | numeral (before : Gap) (numeral : Numeral)
  | group (before : Gap) (formula : Formula) (behind : Gap)

/-- Operands with joints between them; a sign is the filler before it. -/
inductive Formula
  | last (sign : Option Gap) (operand : Operand)
  | cons (sign : Option Gap) (operand : Operand) (before : Gap) (joint : Joint) (rest : Formula)

end

/-- How a sign is written, if there is one. -/
def signText : Option Gap → String
  | none => ""
  | some before => before.text ++ "-"

mutual

/-- How an operand is written. -/
def Operand.text : Operand → String
  | .numeral before numeral => before.text ++ numeral.text
  | .group before formula behind => before.text ++ "(" ++ formula.text ++ (behind.text ++ ")")

/-- How a formula is written. -/
def Formula.text : Formula → String
  | .last sign operand => signText sign ++ operand.text
  | .cons sign operand before joint rest =>
    signText sign ++ operand.text ++ (before.text ++ joint.symbol.text) ++ rest.text

end

/-! ## The value of a formula -/

/-- The number that decimal digits stand for. -/
def Numeral.value (numeral : Numeral) : Int := Nat.ofDigitChars 10 numeral.text.toList 0

/-- The value behind a sign, if there is one. -/
def signedValue (sign : Option Gap) (value : Int) : Int := if sign.isSome then -value else value

/-- A sum, with the product that is still open, and what is joined to them from left to right: a
    factor goes to the product, and before another sign the product goes to the sum. -/
def total (sum product : Int) : List (Joint × Int) → Int
  | [] => sum + product
  | (.times, value) :: rest => total sum (product * value) rest
  | (.plus, value) :: rest => total (sum + product) value rest
  | (.minus, value) :: rest => total (sum + product) (-value) rest

mutual

/-- The value of an operand. -/
def Operand.value : Operand → Int
  | .numeral _ numeral => numeral.value
  | .group _ formula _ => total 0 formula.values.1 formula.values.2

/-- The values of the operands of a formula, each but the first with the joint before it. -/
def Formula.values : Formula → Int × List (Joint × Int)
  | .last sign operand => (signedValue sign operand.value, [])
  | .cons sign operand _ joint rest =>
    (signedValue sign operand.value, (joint, rest.values.1) :: rest.values.2)

end

/-- The value of a formula. -/
def Formula.value (formula : Formula) : Int := total 0 formula.values.1 formula.values.2

/-! ## Folding numbers -/

/-- Two numbers joined by an operator. -/
def apply (left : Int) (op : Operator) (right : Int) : Int := (op.symbol.result? left right).getD 0

/-- A value with the operator that its joint is. -/
def pairOf (p : Joint × Int) : Pair Int := (⟨p.1.symbol, none⟩, p.2)

/-- What is held back, with the latest number, amounts to a sum and an open product: factors of
    the latest number are factors of the product. -/
inductive Pending : Fold.Held Int → Int → Int → Int → Prop
  | alone (x : Int) : Pending [] x 0 x
  | added (l x : Int) {op : Operator} : op.symbol = .plus → Pending [(l, op)] x l x
  | taken (l x : Int) {op : Operator} : op.symbol = .minus → Pending [(l, op)] x l (-x)
  | times {held : Fold.Held Int} {l x sum product : Int} {op : Operator} :
      op.symbol = .times → Pending held (l * x) sum product →
        Pending ((l, op) :: held) x sum product

section

variable {held : Fold.Held Int} {x sum product : Int}

theorem apply_eq {l r v : Int} {op : Operator} {s : Symbol} (hs : op.symbol = s)
    (hv : s.result? l r = some v) : apply l op r = v := by
  rw [apply, hs, hv]
  rfl

/-- Joining all that is held leaves the sum with the product. -/
theorem Pending.drain (h : Pending held x sum product) :
    Fold.drain apply held x = sum + product := by
  induction h with
  | alone x => exact (Int.zero_add x).symm
  | added l x hop => exact apply_eq hop rfl
  | taken l x hop => exact (apply_eq hop rfl).trans Int.sub_eq_add_neg
  | times hop _ ih =>
      rw [Fold.drain, apply_eq hop rfl]
      exact ih

/-- Another factor of the latest number is one of the product. -/
theorem Pending.scale (h : Pending held x sum product) (y : Int) :
    Pending held (x * y) sum (product * y) := by
  induction h with
  | alone x => exact .alone _
  | added l x hop => exact .added l _ hop
  | taken l x hop =>
      rw [Int.neg_mul]
      exact .taken l _ hop
  | times hop _ ih =>
      refine .times hop ?_
      rw [← Int.mul_assoc]
      exact ih

/-- Before a plus or a minus everything that is held is joined. -/
theorem Pending.settle_sum (h : Pending held x sum product) {next : Operator}
    (hnext : next.symbol = .plus ∨ next.symbol = .minus) :
    Fold.settle apply next held x = ([], sum + product) := by
  have hbinds : ∀ p ∈ held, p.2.bindsBefore next = true := by
    have hop : ∀ {op : Operator}, op.symbol ∈ [Symbol.plus, .minus, .times] →
        op.bindsBefore next = true := by
      intro op hop
      simp only [List.mem_cons, List.not_mem_nil, or_false] at hop
      rcases hop with hop | hop | hop <;> rcases hnext with hnext | hnext <;>
        simp [Operator.bindsBefore, hop, hnext, Symbol.priority, Symbol.leftAssoc]
    clear hnext
    induction h with
    | alone x => exact List.forall_mem_nil _
    | added l x hplus => exact List.forall_mem_singleton.mpr (hop (by simp [hplus]))
    | taken l x hminus => exact List.forall_mem_singleton.mpr (hop (by simp [hminus]))
    | times htimes _ ih => exact List.forall_mem_cons.mpr ⟨hop (by simp [htimes]), ih⟩
  rw [Fold.settle_all hbinds, h.drain]

/-- Before a times only products are joined, and the sum and the product stay. -/
theorem Pending.settle_times (h : Pending held x sum product) (next : Operator)
    (hnext : next.symbol = .times) :
    Pending (Fold.settle apply next held x).1 (Fold.settle apply next held x).2 sum product := by
  induction h with
  | alone x => exact .alone x
  | @added l x op hop =>
      have hno : op.bindsBefore next = false := by
        simp [Operator.bindsBefore, hop, hnext, Symbol.priority]
      rw [Fold.settle, hno]
      exact .added l x hop
  | @taken l x op hop =>
      have hno : op.bindsBefore next = false := by
        simp [Operator.bindsBefore, hop, hnext, Symbol.priority]
      rw [Fold.settle, hno]
      exact .taken l x hop
  | @times held l x sum product op hop _ ih =>
      have hbinds : op.bindsBefore next = true := by
        simp [Operator.bindsBefore, hop, hnext, Symbol.priority, Symbol.leftAssoc]
      rw [Fold.settle, if_pos hbinds, apply_eq hop rfl]
      exact ih

end

/-- **FOLDING NUMBERS**: from what is pending on, the fold of a run is its total. -/
theorem run_total : ∀ (rest : List (Joint × Int)) {held : Fold.Held Int} {x sum product : Int},
    Pending held x sum product →
      Fold.run apply held x (rest.map pairOf) = total sum product rest := by
  intro rest
  induction rest with
  | nil => exact fun h => h.drain
  | cons p rest ih =>
      intro held x sum product h
      obtain ⟨joint, value⟩ := p
      rw [List.map_cons, pairOf, Fold.run_cons]
      cases joint with
      | plus =>
          rw [h.settle_sum (.inl rfl)]
          exact ih (.added _ _ rfl)
      | minus =>
          rw [h.settle_sum (.inr rfl)]
          exact ih (.taken _ _ rfl)
      | times =>
          refine ih (.times rfl ?_)
          exact (h.settle_times ⟨.times, none⟩ rfl).scale value

/-- Two operators are one joint. -/
def SameJoint (op op' : Operator) : Prop :=
  op.symbol = op'.symbol ∧ ∃ joint : Joint, op'.symbol = joint.symbol

/-- A run of nodes has the joints and the values of a formula. -/
def Valued (operands : Node × List (Pair Node)) (values : Int × List (Joint × Int)) : Prop :=
  operands.1.evaluate? = some values.1 ∧
    List.Forall₂ (fun p v => p.1.symbol = v.1.symbol ∧ p.2.evaluate? = some v.2) operands.2
      values.2

/-- The fold of a run of nodes has the total of their values for its value. -/
theorem resolve_value {operands : Node × List (Pair Node)} {values : Int × List (Joint × Int)}
    (h : Valued operands values) :
    (resolve operands.1 operands.2).evaluate? = some (total 0 values.1 values.2) := by
  have hpairs : Fold.PairRel (fun n v => n.evaluate? = some v) SameJoint operands.2
      (values.2.map pairOf) :=
    List.forall₂_map_right_iff.mpr (h.2.imp fun _ v hv => ⟨⟨hv.1, v.1, rfl⟩, hv.2⟩)
  have hjoin : ∀ {l : Node} {l' : Int} {o o' : Operator} {r : Node} {r' : Int},
      l.evaluate? = some l' → SameJoint o o' → r.evaluate? = some r' →
        (Node.binary l o r).evaluate? = some (apply l' o' r') := by
    rintro l l' o o' r r' hl ⟨ho, joint, hjoint⟩ hr
    rw [Node.evaluate?, hl, hr, apply, ho, hjoint]
    cases joint <;> rfl
  have hfold := @Fold.resolveBy_rel Node Int .binary apply (fun n v => n.evaluate? = some v)
    SameJoint (fun ho => ho.1) hjoin _ _ _ _ h.1 hpairs
  rw [resolve, hfold, resolveBy, run_total values.2 (.alone values.1)]

/-! ## Reading a formula -/

/-- Tokens of an operand of a value. -/
def AsOperand (value : Int) : List Token → Prop :=
  Derives Primary.tokens Primary.Greedy (fun _ => True) fun d => d.node.evaluate? = some value

/-- Tokens of a run with the joints and the values of a formula. -/
def AsFormula (values : Int × List (Joint × Int)) : List Token → Prop :=
  Derives Run.tokens Run.Greedy (fun _ => True) fun d => Valued d.operands values

/-- Tokens of a sign, if there is one. -/
def AsSign (sign : Option Gap) (ts : List Token) : Prop :=
  ∃ s : Option (Leaf [.minus]), optionTokens s = ts ∧ s.isSome = sign.isSome

section

variable {sign : Option Gap} {value : Int} {ts : List Token}

theorem signed_value {s : Option (Leaf [.minus])} {n : Node} (hs : s.isSome = sign.isSome)
    (hn : n.evaluate? = some value) :
    (signed s n).evaluate? = some (signedValue sign value) := by
  rw [signed, signedValue, hs]
  split
  · rw [Node.evaluate?, hn]
    rfl
  · exact hn

theorem asOperand_numeral {numeral : Numeral} (h : Single .number numeral.text ts) :
    AsOperand numeral.value ts := by
  obtain ⟨t, rfl, ht, htext⟩ := h
  refine ⟨.literal ⟨t, by rw [ht]; decide⟩, rfl, ?_, fun _ _ => trivial⟩
  show (Parse.literalOf t).evaluate? = _
  rw [Parse.literalOf, if_pos ht, htext, Node.evaluate?, Text.ofDigits, List.foldl_map]
  rfl

theorem asOperand_group {values : Int × List (Joint × Int)}
    (h : Followed (Followed (Single .openParen "(") (AsFormula values))
      (Single .closeParen ")") ts) : AsOperand (total 0 values.1 values.2) ts := by
  obtain ⟨-, -, rfl, ⟨-, -, rfl, ⟨opening, rfl, ho, -⟩, d, rfl, hd, hg⟩, closing, rfl, hc, -⟩ := h
  exact ⟨.group (leafOf opening ho) (.run d) (leafOf closing hc), rfl, resolve_value hd,
    fun next _ => hg _ trivial⟩

theorem asFormula_last (h : Followed (AsSign sign) (AsOperand value) ts) :
    AsFormula (signedValue sign value, []) ts := by
  obtain ⟨-, -, rfl, ⟨s, rfl, hs⟩, d, rfl, hd, hg⟩ := h
  exact ⟨.last s d, rfl, ⟨signed_value hs hd, .nil⟩, hg⟩

theorem asFormula_cons {joint : Joint} {values : Int × List (Joint × Int)}
    (h : Followed (Followed (Followed (AsSign sign) (AsOperand value))
      (AsOperator ⟨joint.symbol, none⟩)) (AsFormula values) ts) :
    AsFormula (signedValue sign value, (joint, values.1) :: values.2) ts := by
  obtain ⟨-, -, rfl, ⟨-, -, rfl, ⟨-, -, rfl, ⟨s, rfl, hs⟩, d, rfl, hd, hg⟩, t, rfl, ht, hop⟩,
    rest, rfl, hrest, hrestg⟩ := h
  refine ⟨.cons s d ⟨t, ht⟩ rest, ?_, ⟨signed_value hs hd, .cons ⟨hop, hrest.1⟩ hrest.2⟩,
    fun next _ => ⟨hg _ trivial, hrestg _ trivial⟩⟩
  rw [List.append_assoc, List.append_assoc]
  rfl

end

/-! ### Where a text goes on -/

/-- Filler belongs to no class that what follows does not begin in, if it is no class of filler. -/
theorem Gap.breaks {class? : Char → Bool} (hclass : ∀ c, Text.isFiller c = true → class? c = false)
    (gap : Gap) {rest : List Char} (h : Breaks class? rest) :
    Breaks class? (gap.text.toList ++ rest) := by
  cases hl : gap.text.toList with
  | nil => exact h
  | cons c more => exact hclass c (gap.filler c (by rw [hl]; exact List.mem_cons_self))

theorem filler_digit (c : Char) (h : Text.isFiller c = true) : c.isDigit = false :=
  (class_filler h).1

theorem filler_arrow (c : Char) (h : Text.isFiller c = true) : (c == '>') = false := by
  rw [beq_eq_false_iff_ne]
  rintro rfl
  exact nomatch h

/-- An operand does not make an arrow of a minus before it. -/
theorem Operand.opens (operand : Operand) (rest : List Char) :
    Breaks (· == '>') (operand.text.toList ++ rest) := by
  cases operand with
  | numeral before numeral =>
      rw [Operand.text, String.toList_append, List.append_assoc]
      refine before.breaks filler_arrow ?_
      obtain ⟨c, digits, hl⟩ := List.exists_cons_of_ne_nil numeral.writes.1
      have hc := numeral.writes.2 c (by rw [hl]; exact List.mem_cons_self)
      rw [hl]
      refine beq_eq_false_iff_ne.mpr ?_
      rintro rfl
      exact nomatch hc
  | group before formula behind =>
      rw [Operand.text, String.toList_append, String.toList_append, String.toList_append,
        List.append_assoc, List.append_assoc, List.append_assoc]
      exact before.breaks filler_arrow rfl

theorem signed_opens (sign : Option Gap) (operand : Operand) (rest : List Char) :
    Breaks (· == '>') ((signText sign ++ operand.text).toList ++ rest) := by
  rw [String.toList_append, List.append_assoc]
  cases sign with
  | none => exact operand.opens rest
  | some before =>
      rw [signText, String.toList_append, List.append_assoc]
      exact before.breaks filler_arrow rfl

theorem Formula.opens (formula : Formula) (rest : List Char) :
    Breaks (· == '>') (formula.text.toList ++ rest) := by
  cases formula with
  | last sign operand => exact signed_opens sign operand rest
  | cons sign operand before joint more =>
      rw [Formula.text, String.toList_append, String.toList_append, List.append_assoc,
        List.append_assoc]
      exact signed_opens sign operand _

/-- Behind a numeral a joint may stand. -/
theorem joint_breaks (before : Gap) (joint : Joint) (rest : List Char) :
    Breaks Char.isDigit ((before.text ++ joint.symbol.text).toList ++ rest) := by
  rw [String.toList_append, List.append_assoc]
  refine before.breaks filler_digit ?_
  cases joint <;> rfl

/-! ### Piece by piece -/

theorem Gap.reads (gap : Gap) : Reads Free gap.text (· = []) := .filler gap.filler

theorem reads_sign (sign : Option Gap) :
    Reads (Breaks (· == '>')) (signText sign) (AsSign sign) := by
  cases sign with
  | none =>
      have hnone : Reads Free "" (· = []) := .filler nofun
      refine (hnone.restrict fun _ _ => trivial).imp ?_
      rintro ts rfl
      exact ⟨none, rfl, rfl⟩
  | some before =>
      refine (before.reads.behind_filler reads_minus).imp ?_
      rintro ts ⟨t, rfl, ht, -⟩
      exact ⟨some (leafOf t ht), rfl, rfl⟩

theorem reads_joint (joint : Joint) :
    Reads (Breaks (· == '>')) joint.symbol.text (AsOperator ⟨joint.symbol, none⟩) := by
  have hoperator : ∀ {u : String}, u.toList ∈ operatorTexts → u.toList ≠ ['<'] →
      Reads (Breaks (· == '>')) u (Single .operator u) := by
    intro u hu hne
    exact (Reads.token (k := .operator) nofun hu nofun).restrict fun _ _ heq => absurd heq hne
  cases joint with
  | minus => exact reads_minus.imp fun _ => asOperator_single ⟨.minus, none⟩ (by decide)
  | plus =>
      exact (hoperator (by decide) (by decide)).imp
        fun _ => asOperator_single ⟨.plus, none⟩ (by decide)
  | times =>
      exact (hoperator (by decide) (by decide)).imp
        fun _ => asOperator_single ⟨.times, none⟩ (by decide)

/-- An operand with its sign. -/
theorem reads_signed (sign : Option Gap) {operand : Operand}
    (h : Reads (Breaks Char.isDigit) operand.text (AsOperand operand.value)) :
    Reads (Breaks Char.isDigit) (signText sign ++ operand.text)
      (Followed (AsSign sign) (AsOperand operand.value)) :=
  (reads_sign sign).append h fun rest _ => operand.opens rest

mutual

/-- An operand reads as one of its value. -/
theorem Operand.reads : ∀ operand : Operand,
    Reads (Breaks Char.isDigit) operand.text (AsOperand operand.value)
  | .numeral before numeral => by
      have hdigits : Reads (Breaks Char.isDigit) numeral.text (Single .number numeral.text) :=
        .token (k := .number) nofun numeral.writes fun _ => numeral.short
      exact (before.reads.behind_filler hdigits).imp fun _ => asOperand_numeral
  | .group before formula behind => by
      have hopening : Reads Free (before.text ++ "(") (Single .openParen "(") :=
        before.reads.behind_filler (.bracket (by decide) rfl)
      have hclosing : Reads Free (behind.text ++ ")") (Single .closeParen ")") :=
        behind.reads.behind_filler (.bracket (by decide) rfl)
      have hgroup := (hopening.free (Formula.reads formula)).append hclosing fun rest _ => by
        rw [String.toList_append, List.append_assoc]
        exact behind.breaks filler_digit rfl
      exact (hgroup.restrict fun _ _ => trivial).imp fun _ => asOperand_group

/-- A formula reads as a run of its joints and values. -/
theorem Formula.reads : ∀ formula : Formula,
    Reads (Breaks Char.isDigit) formula.text (AsFormula formula.values)
  | .last sign operand => (reads_signed sign operand.reads).imp fun _ => asFormula_last
  | .cons sign operand before joint rest => by
      have hjoint := before.reads.behind_filler (reads_joint joint)
      have hfront := (reads_signed sign operand.reads).append hjoint fun more _ =>
        joint_breaks before joint more
      exact (hfront.append (Formula.reads rest) fun more _ => rest.opens more).imp
        fun _ => asFormula_cons

end

/-! ### Whole texts -/

/-- A line that is a formula. -/
theorem asLine {formula : Formula} {ts : List Token}
    (h : Followed (AsFormula formula.values) (Single .separator "\n") ts) :
    ∃ d : Derivation, d.tokens = ts ∧ d.Greedy ∧
      ∃ n, d.nodes = [n] ∧ n.evaluate? = some formula.value := by
  obtain ⟨-, -, rfl, ⟨d, rfl, hd, hg⟩, t, rfl, ht, -⟩ := h
  refine ⟨[⟨some (.cluster (.expr (.run d))), leafOf t ht⟩], List.append_nil _, ⟨?_, trivial⟩,
    _, rfl, resolve_value hd⟩
  intro statement hs
  obtain rfl := Option.some.inj hs
  exact hg _ trivial

/-- No separator is filler. -/
theorem Gap.closes (gap : Gap) {text : String} (h : Closes text) : Closes (text ++ gap.text) := by
  cases hl : gap.text.toList.getLast? with
  | none =>
      rw [List.getLast?_eq_none_iff] at hl
      rw [String.toList_eq_nil_iff.mp hl, String.append_empty]
      exact h
  | some c =>
      have hfiller := gap.filler c (List.mem_of_getLast? hl)
      refine Closes.append ⟨c, hl, ?_⟩ text
      rw [Program.isSeparator, Bool.or_eq_false_iff, beq_eq_false_iff_ne, beq_eq_false_iff_ne]
      constructor <;> rintro rfl <;> exact absurd hfiller (by decide)

theorem Operand.closes (operand : Operand) : Closes operand.text := by
  cases operand with
  | numeral before numeral =>
      have hword : ∀ c ∈ numeral.text.toList, Text.isWordChar c = true :=
        fun c hc => isWordChar_digit (numeral.writes.2 c hc)
      exact (Edged.word numeral.writes.1 hword).closes.append _
  | group before formula behind =>
      have hbracket : Closes ")" := ⟨')', rfl, rfl⟩
      exact (hbracket.append _).append _

theorem Formula.closes : ∀ formula : Formula, Closes formula.text
  | .last _ operand => operand.closes.append _
  | .cons _ _ _ _ rest => (Formula.closes rest).append _

/-- **ARITHMETIC**: a formula, with filler behind it, is read as one statement, and the value of
    the tree is the value of the formula. -/
theorem read_value (formula : Formula) (behind : Gap) :
    ∃ n, Program.read (formula.text ++ behind.text) = .ok [n] ∧
      n.evaluate? = some formula.value := by
  have hend : Reads Free (behind.text ++ "\n") (Single .separator "\n") :=
    behind.reads.behind_filler .newline
  have hline := formula.reads.append hend fun rest _ => by
    rw [String.toList_append, List.append_assoc]
    exact behind.breaks filler_digit rfl
  have hcomplete := Program.complete_open (behind.closes formula.closes)
  rw [String.append_assoc] at hcomplete
  obtain ⟨out, hread, n, rfl, hvalue⟩ := Program.read_tokens
    (P := fun out => ∃ n, out = [n] ∧ n.evaluate? = some formula.value)
    (hline.imp fun _ => asLine) hcomplete
  exact ⟨n, hread, hvalue⟩

/-- Nothing between two tokens. -/
def closeUp : Gap := ⟨"", nofun⟩

/-- A blank between two tokens. -/
def blank : Gap := ⟨" ", List.forall_mem_singleton.mpr rfl⟩

/-- A number of one digit. -/
def digit (c : Char) (h : c.isDigit = true) : Numeral where
  text := String.singleton c
  writes := by
    rw [String.toList_singleton]
    exact ⟨List.cons_ne_nil _ _, List.forall_mem_singleton.mpr h⟩
  short := by
    rw [String.length_singleton]
    decide

/-- Two differences in a run, the last operand a product with a sign and a bracket in it. -/
def differences : Formula :=
  .cons none (.numeral closeUp (digit '1' rfl)) blank .minus <|
    .cons none (.numeral blank (digit '2' rfl)) blank .minus <|
      .cons none (.numeral blank (digit '3' rfl)) blank .times <|
        .last (some blank) <| .group closeUp (.last none (.numeral closeUp (digit '4' rfl))) closeUp

/-- They are read as a tree that takes away from left to right, behind the product. -/
theorem read_value_differences :
    ∃ n, Program.read "1 - 2 - 3 * -(4)" = .ok [n] ∧ n.evaluate? = some 11 := by
  have htext : differences.text ++ closeUp.text = "1 - 2 - 3 * -(4)" := by decide +kernel
  have hvalue : differences.value = 11 := by decide +kernel
  obtain ⟨n, hread, heval⟩ := read_value differences closeUp
  rw [htext] at hread
  rw [hvalue] at heval
  exact ⟨n, hread, heval⟩

end Arithmetic

end BasicSyntax
