import BasicSyntax.Proofs.Source.Derived
import BasicSyntax.Proofs.Text.Digits
import BasicSyntax.Proofs.Text.Literal

/-! # Written nodes — the sort of part that a node is written as

    The source form writes every node as a part of the narrowest sort that fits it
    (`AsWritten`), and puts it in brackets where a narrower one is asked for.  So each place of
    the grammar has one lemma: what nodes may stand there as they are, and that brackets do for
    the others (`Reads.bracketed`).

    The nodes that are one token come first: their texts write that token, and what it is read
    as is the node. -/

namespace BasicSyntax

open Grammar

/-- Tokens of a node, as the sort of part that the source form writes it as. -/
def Node.AsWritten (n : Node) : List Token → Prop :=
  match n with
  | .binder _ => AsWord .identifier n
  | .number _ _ => AsWord .number n
  | .string _ _ => AsWord .string n
  | .underline _ => AsWord .underline n
  | .application _ _ => AsPrimary n
  | .negative _ | .binary _ _ _ => AsRun (Admits n) n
  | .function _ _ _ => AsExpr n
  | .enclosed _ _ => AsEnclosed n
  | _ => AsStatement n

namespace Node.AsWritten

variable {n : Node} {ts : List Token}

/-! ## The places of the grammar -/

theorem primary (h : n.IsExpr) (hp : n.isPlainPrimary = true) (hts : n.AsWritten ts) :
    AsPrimary n ts := by
  cases h with
  | name _ => exact AsWord.primary hts
  | number _ _ => exact (AsWord.condition (by decide) hts).primary
  | string _ _ => exact (AsWord.condition (by decide) hts).primary
  | application _ _ _ => exact hts
  | _ => exact Bool.noConfusion hp

theorem condition (h : n.IsExpr) (hp : n.isPlainCondition = true) (hts : n.AsWritten ts) :
    AsCondition n ts := by
  cases h with
  | number _ _ => exact AsWord.condition (by decide) hts
  | string _ _ => exact AsWord.condition (by decide) hts
  | _ => exact Bool.noConfusion hp

theorem run (h : n.IsExpr) (hf : n.isFunction = false) (hts : n.AsWritten ts) :
    AsRun (Admits n) n ts := by
  cases h with
  | negative _ => exact hts
  | binary _ _ _ => exact hts
  | function _ _ _ _ => exact Bool.noConfusion hf
  | name hb => exact (primary (.name hb) rfl hts).run _
  | number pos hv => exact (primary (.number pos hv) rfl hts).run _
  | string pos hl => exact (primary (.string pos hl) rfl hts).run _
  | application hb hne hall => exact (primary (.application hb hne hall) rfl hts).run _

theorem expr (h : n.IsExpr) (hts : n.AsWritten ts) : AsExpr n ts := by
  cases hf : n.isFunction with
  | false => exact (run h hf hts).expr
  | true =>
      cases h with
      | function _ _ _ _ => exact hts
      | _ => exact Bool.noConfusion hf

theorem argument (h : n.IsArgument) (hp : n.isPlainArgument = true) (hts : n.AsWritten ts) :
    AsArgument n ts := by
  cases h with
  | underline _ => exact AsWord.argument (by decide) hts
  | enclosed _ _ => exact AsEnclosed.argument hts
  | expr h =>
      cases h with
      | name _ => exact AsWord.argument (by decide) hts
      | number _ _ => exact AsWord.argument (by decide) hts
      | string _ _ => exact AsWord.argument (by decide) hts
      | _ => exact Bool.noConfusion hp

theorem cluster (h : n.IsCluster) (hts : n.AsWritten ts) : AsCluster n ts := by
  cases h with
  | expr h => exact (expr h hts).cluster
  | enclosed _ _ => exact AsEnclosed.cluster hts

theorem statement (h : n.IsStmt) (hts : n.AsWritten ts) : AsStatement n ts := by
  cases h with
  | cluster h => exact (cluster h hts).statement
  | _ => exact hts

end Node.AsWritten

/-! ## Brackets where they are wanted -/

/-- **BRACKETS**: a node fits a place with brackets around it, and without them where they are
    not wanted. -/
theorem Reads.bracketed {wanted : Bool} {text : String} {n : Node} {Q : List Token → Prop}
    (h : Reads Clear text n.AsWritten)
    (hwanted : wanted = true → ∀ ts, n.AsWritten ts → AsExpr n ts)
    (hgroup : ∀ ts, AsGroup n ts → Q ts)
    (hplain : wanted = false → ∀ ts, n.AsWritten ts → Q ts) :
    Reads Clear (bracketed wanted text) Q := by
  cases wanted with
  | true => exact (h.imp (hwanted rfl)).parens.clear.imp hgroup
  | false => exact h.imp (hplain rfl)

theorem Edged.bracketed (wanted : Bool) {text : String} (h : Edged text) :
    Edged (bracketed wanted text) := by
  cases wanted with
  | true =>
      have hopens : Opens "(" := ⟨'(', rfl, by decide⟩
      have hcloses : Closes ")" := ⟨')', rfl, rfl⟩
      exact ⟨(hopens.append _).append _, hcloses.append _⟩
  | false => exact h

/-- An operand on the left of an operator, in brackets or not, binds before it. -/
theorem reads_left (op : Operator) {n : Node} (hn : n.IsExpr) {text : String}
    (h : Reads Clear text n.AsWritten) :
    Reads Clear (bracketed (n.isFunction || n.regroupsLeft op) text)
      (AsRun (·.bindsBefore op = true) n) := by
  refine h.bracketed (fun _ _ => Node.AsWritten.expr hn)
    (fun _ hts => hts.condition.primary.run _) ?_
  intro hplain ts hts
  obtain ⟨hf, hl⟩ := Bool.or_eq_false_iff.mp hplain
  exact (hts.run hn hf).among fun _ => binds_left hl

/-- An operand on the right of an operator, in brackets or not, does not bind after it. -/
theorem reads_right (op : Operator) {n : Node} (hn : n.IsExpr) {text : String}
    (h : Reads Clear text n.AsWritten) :
    Reads Clear (bracketed (n.isFunction || n.regroupsRight op) text)
      (AsRun (op.bindsBefore · = false) n) := by
  refine h.bracketed (fun _ _ => Node.AsWritten.expr hn)
    (fun _ hts => hts.condition.primary.run _) ?_
  intro hplain ts hts
  obtain ⟨hf, hr⟩ := Bool.or_eq_false_iff.mp hplain
  exact (hts.run hn hf).among fun _ => binds_right hr

/-- An operand behind a sign. -/
theorem reads_primary {n : Node} (hn : n.IsExpr) {text : String}
    (h : Reads Clear text n.AsWritten) :
    Reads Clear (bracketed (!n.isPlainPrimary) text) (AsPrimary n) :=
  h.bracketed (fun _ _ => Node.AsWritten.expr hn) (fun _ hts => hts.condition.primary)
    fun hp _ => Node.AsWritten.primary hn ((Bool.not_eq_false' _).mp hp)

/-- A condition. -/
theorem reads_condition {n : Node} (hn : n.IsExpr) {text : String}
    (h : Reads Clear text n.AsWritten) :
    Reads Clear (bracketed (!n.isPlainCondition) text) (AsCondition n) :=
  h.bracketed (fun _ _ => Node.AsWritten.expr hn) (fun _ => AsGroup.condition)
    fun hp _ => Node.AsWritten.condition hn ((Bool.not_eq_false' _).mp hp)

/-- An argument; what needs brackets is an expression. -/
theorem reads_argument {n : Node} (hn : n.IsArgument) {text : String}
    (h : Reads Clear text n.AsWritten) :
    Reads Clear (bracketed (!n.isPlainArgument) text) (AsArgument n) := by
  refine h.bracketed ?_ (fun _ => AsGroup.argument)
    fun hp _ => Node.AsWritten.argument hn ((Bool.not_eq_false' _).mp hp)
  intro hw ts hts
  cases hn with
  | expr hn => exact hts.expr hn
  | _ => exact Bool.noConfusion hw

/-! ## Nodes that are one token -/

/-- The descriptions of a token that is a word. -/
theorem Reads.asWord {k : Terminal} {u : String} {n : Node} (h : Reads Clear u (Single k u))
    (hn : ∀ t : Token, t.terminal = k → t.text = u → (wordNode t).agrees n = true) :
    Reads Clear u (AsWord k n) := by
  refine h.imp ?_
  rintro ts ⟨t, rfl, ht, htext⟩
  exact ⟨t, rfl, ht, hn t ht htext⟩

theorem reads_name {b : Binder} (h : b.IsNamed) : Reads Clear b.text (AsName b) :=
  .lexeme nofun h nofun

theorem edged_name {b : Binder} (h : b.IsNamed) : Edged b.text := .word h.nonempty h.word

theorem reads_binder {b : Binder} (h : b.IsNamed) :
    Reads Clear b.text (AsWord .identifier (.binder b)) := by
  refine (reads_name h).asWord fun t ht htext => ?_
  rw [wordNode_name ht]
  exact Node.agrees_binder htext

theorem reads_number {value : Nat} (pos : Option Position) (h : value < 10 ^ Text.digitLimit) :
    Reads Clear (toString (value : Int)) (AsWord .number (.number value pos)) := by
  have hlist : value.repr.toList = Nat.toDigits 10 value := Nat.toList_repr
  show Reads Clear value.repr _
  refine (Reads.lexeme (k := .number) nofun ?_ fun _ => ?_).asWord fun t ht htext => ?_
  · rw [hlist]
    exact Text.writes_toDigits value
  · rw [← String.length_toList, hlist]
    exact (Nat.length_toDigits_le_iff (by decide) (by decide)).mpr h
  · rw [wordNode_literal (by rw [ht]; decide), Parse.literalOf, if_pos ht, htext, hlist,
      Text.ofDigits_toDigits]
    exact Node.agrees_number _ _ _

theorem edged_number (value : Nat) : Edged (toString (value : Int)) := by
  have hlist : value.repr.toList = Nat.toDigits 10 value := Nat.toList_repr
  show Edged value.repr
  refine .word (by rw [hlist]; exact Nat.toDigits_ne_nil) fun c hc => ?_
  rw [hlist] at hc
  exact isWordChar_digit ((Text.writes_toDigits value).2 c hc)

theorem reads_string {literal : String} (pos : Option Position) (h : IsLiteral literal) :
    Reads Clear (Text.writeLiteral literal) (AsWord .string (.string literal pos)) := by
  have hlist : (Text.writeLiteral literal).toList =
      '"' :: (Text.encodeLiteral literal.toList ++ ['"']) := String.toList_ofList
  refine (Reads.lexeme (k := .string) nofun ⟨_, hlist, h.body⟩ nofun).asWord
    fun t ht htext => ?_
  have hread : Text.readLiteral t.text = literal := by
    rw [htext, ← String.toList_inj, Text.readLiteral_quoted hlist, Text.decode_encode _ h.plain]
  rw [wordNode_literal (by rw [ht]; decide), Parse.literalOf, if_neg (by rw [ht]; decide), hread]
  exact Node.agrees_string _ _ _

theorem edged_string (literal : String) : Edged (Text.writeLiteral literal) := by
  have hlist : (Text.writeLiteral literal).toList =
      ('"' :: Text.encodeLiteral literal.toList) ++ ['"'] := String.toList_ofList
  refine ⟨⟨'"', ?_, by decide⟩, ⟨'"', ?_, rfl⟩⟩
  · rw [hlist]
    exact rfl
  · rw [hlist, List.getLast?_concat]
    exact rfl

theorem reads_underline (pos : Option Position) :
    Reads Clear "_" (AsWord .underline (.underline pos)) := by
  refine (Reads.spelling rfl).asWord fun t ht _ => ?_
  rw [wordNode, ht]
  exact Node.agrees_underline _ _

/-- A minus is a token of its own where no digit follows it. -/
theorem reads_minus : Reads (Terminal.minus.Ends ['-']) "-" (Single .minus "-") :=
  .token (k := .minus) (u := "-") nofun rfl nofun

/-- A token with the text of an operator joins operands as the operator does. -/
theorem asOperator_single (op : Operator) {k : Terminal} (hk : k ∈ operatorSorts)
    {ts : List Token} (h : Single k op.symbol.text ts) : AsOperator op ts := by
  have hsymbol : ∀ s : Symbol, (Symbol.ofText? s.text).getD .dummy = s := by
    intro s
    cases s <;> decide
  obtain ⟨t, rfl, rfl, htext⟩ := h
  refine ⟨t, rfl, hk, ?_⟩
  rw [Parse.operatorOf, htext]
  exact hsymbol op.symbol

/-- An operator that texts contain is written as a token that joins operands as it does. -/
theorem reads_operator {op : Operator} (h : op.symbol ≠ .dummy) :
    Reads Clear op.symbol.text (AsOperator op) := by
  obtain ⟨symbol, pos⟩ := op
  by_cases hm : symbol = .minus
  · subst hm
    exact (Reads.spelling rfl).imp
      fun _ => asOperator_single ⟨.minus, pos⟩ (k := .minus) (by decide)
  · refine (Reads.lexeme (k := .operator) nofun ?_ nofun).imp
      fun _ => asOperator_single ⟨symbol, pos⟩ (by decide)
    show symbol.text.toList ∈ operatorTexts
    cases symbol <;> first | exact absurd rfl h | exact absurd rfl hm | decide

/-- The words that a binding begins with. -/
theorem reads_keyword (form : BindingForm) : Reads Clear form.keyword (AsKeyword form) := by
  cases form with
  | value =>
      refine (Reads.spelling (k := .letWord) rfl).imp ?_
      rintro ts ⟨t, rfl, ht, -⟩
      exact ⟨leafOf t ht, none, rfl, rfl⟩
  | template =>
      refine ((Reads.spelling (k := .letWord) rfl).spaced
        (Reads.spelling (k := .macroWord) rfl)).imp ?_
      rintro ts ⟨-, -, rfl, ⟨t, rfl, ht, -⟩, t', rfl, ht', -⟩
      exact ⟨leafOf t ht, some (leafOf t' ht'), rfl, rfl⟩

end BasicSyntax
