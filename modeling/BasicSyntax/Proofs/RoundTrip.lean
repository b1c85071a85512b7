import BasicSyntax.Proofs.Reading
import BasicSyntax.Proofs.Source.Written

/-! # Round trip — the source form of a program reads as the program

    Printing a well-formed node gives a text at every level of indentation and comes back to the
    level it began at, and the text is a piece that reads as the node (`Node.Printed`).  The
    induction is on well-formedness, and each rule of it puts together the pieces that its
    parts are printed as.

    At the level of the whole program this is the round trip: a program that is printed and
    read gives a program that agrees with it, which is to say that only positions differ. -/

namespace BasicSyntax

open Grammar

namespace Printing

/-- A step of printing has a result and leaves the level of indentation as it was. -/
def Yields {α : Type} (step : Printing α) (level : Nat) (result : α) : Prop :=
  step level = (.ok result, level)

variable {α β : Type}

theorem yields_pure (result : α) (level : Nat) :
    Yields (pure result : Printing α) level result := rfl

theorem yields_margin (indent : String) (level : Nat) :
    Yields (margin indent) level (Record.repeated indent level) := rfl

/-- A step has one result. -/
theorem Yields.unique {step : Printing α} {level : Nat} {a b : α} (h : Yields step level a)
    (h' : Yields step level b) : a = b :=
  Except.ok.inj (congrArg Prod.fst (h.symm.trans h'))

theorem Yields.bind {step : Printing α} {next : α → Printing β} {level : Nat} {a : α} {b : β}
    (h : Yields step level a) (hnext : Yields (next a) level b) :
    Yields (step >>= next) level b := by
  show (let r := step level; ExceptT.bindCont next r.1 r.2) = _
  rw [show step level = _ from h]
  exact hnext

theorem Yields.deeper {step : Printing α} {level : Nat} {a : α}
    (h : Yields step (level + 1) a) : Yields (deeper step) level a := by
  show (let r := step (level + 1); (r.1, r.2 - 1)) = _
  rw [show step (level + 1) = _ from h]
  rfl

end Printing

open Printing

namespace Node

/-- A node is printed at every level, as a text that reads as the node. -/
def Printed (indent : String) (n : Node) : Prop :=
  ∀ level, ∃ text, Yields (print indent n) level text ∧ Reads Clear text n.AsWritten ∧
    Edged text

variable {indent : String}

/-! ## The text of a node from those of its parts -/

section

variable {level : Nat} {n left right condition thenBlock body : Node}
  {x y z : String} {xs : List String}

theorem yields_number {value : Int} (pos : Option Position) (h : Text.isWritable value = true) :
    Yields (print indent (.number value pos)) level (toString value) := by
  rw [print, number_writable h]
  exact yields_pure _ _

theorem yields_negative (h : Yields (print indent n) level x) :
    Yields (print indent (.negative n)) level ("-" ++ bracketed (!n.isPlainPrimary) x) := by
  rw [print]
  exact h.bind (yields_pure _ _)

theorem yields_binary (op : Operator) (hl : Yields (print indent left) level x)
    (hr : Yields (print indent right) level y) :
    Yields (print indent (.binary left op right)) level
      (bracketed (left.isFunction || left.regroupsLeft op) x ++ " " ++ op.symbol.text ++ " " ++
        bracketed (right.isFunction || right.regroupsRight op) y) := by
  rw [print]
  exact hl.bind (hr.bind (yields_pure _ _))

theorem yields_argument {rest : List Node} (h : Yields (print indent n) level x)
    (hs : Yields (printArguments indent rest) level xs) :
    Yields (printArguments indent (n :: rest)) level
      (bracketed (!n.isPlainArgument) x :: xs) := by
  rw [printArguments]
  exact h.bind (hs.bind (yields_pure _ _))

theorem yields_application (b : Binder) {arguments : List Node}
    (h : Yields (printArguments indent arguments) level xs) :
    Yields (print indent (.application (.binder b) arguments)) level
      (" ".intercalate (b.text :: xs)) := by
  rw [print]
  exact h.bind (yields_pure _ _)

/-- The names of parameters without values. -/
theorem paramNames_unbound (params : List Binder) :
    paramNames (params.map fun b => (b, none)) = .ok (params.map Binder.text) := by
  induction params with
  | nil => rfl
  | cons b params ih =>
      rw [List.map_cons, paramNames, ih]
      rfl

theorem yields_function (params : List Binder) (pos : Option Position)
    (h : Yields (print indent n) level x) :
    Yields (print indent (.function (params.map fun b => (b, none)) n pos)) level
      (functionSource (params.map Binder.text) x) := by
  rw [print, paramNames_unbound]
  exact h.bind (yields_pure _ _)

theorem yields_line {rest : List Node} (hn : n.isNull = false)
    (h : Yields (print indent n) level x) (hs : Yields (printLines indent rest) level xs) :
    Yields (printLines indent (n :: rest)) level ((Record.repeated indent level ++ x) :: xs) := by
  rw [printLines_cons hn]
  exact (yields_margin indent level).bind (h.bind (hs.bind (yields_pure _ _)))

theorem yields_enclosed (form : Enclosure) {stmts : List Node}
    (hnull : ¬ stmts.all isNull = true) (h : Yields (printLines indent stmts) (level + 1) xs) :
    Yields (print indent (.enclosed form stmts)) level
      (enclosedSource form xs (Record.repeated indent level)) := by
  rw [print_enclosed hnull]
  exact h.deeper.bind ((yields_margin indent level).bind (yields_pure _ _))

theorem yields_else (h : Yields (print indent n) level x) :
    Yields (printElse indent (some n)) level (" else " ++ x) := by
  rw [printElse]
  exact h.bind (yields_pure _ _)

theorem yields_conditional {elseBlock : Option Node}
    (hc : Yields (print indent condition) level x) (ht : Yields (print indent thenBlock) level y)
    (he : Yields (printElse indent elseBlock) level z) :
    Yields (print indent (.conditional condition thenBlock elseBlock)) level
      ("if " ++ bracketed (!condition.isPlainCondition) x ++ " " ++ y ++ z) := by
  rw [print]
  exact hc.bind (ht.bind (he.bind (yields_pure _ _)))

theorem yields_loop (hc : Yields (print indent condition) level x)
    (hb : Yields (print indent body) level y) :
    Yields (print indent (.loop condition body)) level
      ("while " ++ bracketed (!condition.isPlainCondition) x ++ " " ++ y) := by
  rw [print]
  exact hc.bind (hb.bind (yields_pure _ _))

theorem yields_binding (form : BindingForm) (named : Binder) (params : Option (List Binder))
    (h : Yields (print indent n) level x) :
    Yields (print indent (.binding form named params n)) level
      (bindingSource form named params x) := by
  rw [print]
  exact h.bind (yields_pure _ _)

end

/-! ## Single tokens -/

theorem printed_binder {b : Binder} (h : b.IsNamed) : Printed indent (.binder b) :=
  fun _ => ⟨b.text, rfl, reads_binder h, edged_name h⟩

theorem printed_number {value : Nat} (pos : Option Position)
    (h : value < 10 ^ Text.digitLimit) : Printed indent (.number value pos) :=
  fun _ => ⟨toString (value : Int), yields_number pos (Text.isWritable_iff.mpr h),
    reads_number pos h, edged_number value⟩

theorem printed_string {literal : String} (pos : Option Position) (h : IsLiteral literal) :
    Printed indent (.string literal pos) :=
  fun _ => ⟨Text.writeLiteral literal, rfl, reads_string pos h, edged_string literal⟩

theorem printed_underline (pos : Option Position) : Printed indent (.underline pos) :=
  fun _ => ⟨"_", rfl, reads_underline pos, ⟨'_', rfl, by decide⟩, ⟨'_', rfl, rfl⟩⟩

/-! ## Expressions -/

theorem printed_negative {n : Node} (hn : n.IsExpr) (h : Printed indent n) :
    Printed indent (.negative n) := by
  intro level
  obtain ⟨text, hp, hr, he⟩ := h level
  have hedged := he.bracketed (!n.isPlainPrimary)
  refine ⟨"-" ++ bracketed (!n.isPlainPrimary) text, yields_negative hp, ?_, ?_, ?_⟩
  · refine (reads_minus.append (reads_primary hn hr) fun rest _ => ?_).imp
      fun _ => asRun_negative _
    exact hedged.opens.ends_minus rest
  · exact Opens.append ⟨'-', rfl, by decide⟩ _
  · exact hedged.closes.append _

theorem printed_binary {left right : Node} {op : Operator} (hl : left.IsExpr)
    (hop : op.symbol ≠ .dummy) (hr : right.IsExpr) (hleft : Printed indent left)
    (hright : Printed indent right) : Printed indent (.binary left op right) := by
  intro level
  obtain ⟨leftText, hlp, hlr, hle⟩ := hleft level
  obtain ⟨rightText, hrp, hrr, hre⟩ := hright level
  refine ⟨_, yields_binary op hlp hrp, (((reads_left op hl hlr).spaced
    (reads_operator hop)).spaced (reads_right op hr hrr)).imp fun _ => asRun_binary, ?_,
    (hre.bracketed _).closes.append _⟩
  · exact ((((hle.bracketed _).opens.append _).append _).append _).append _

/-- Arguments are printed as texts that read as arguments. -/
theorem printed_arguments : ∀ {arguments : List Node},
    (∀ n ∈ arguments, n.IsArgument) → (∀ n ∈ arguments, Printed indent n) → ∀ level,
      ∃ texts, Yields (printArguments indent arguments) level texts ∧
        List.Forall₂ (Reads Clear) texts (arguments.map AsArgument) ∧
          ∀ text ∈ texts, Edged text := by
  intro arguments
  induction arguments with
  | nil => exact fun _ _ level => ⟨[], rfl, .nil, nofun⟩
  | cons n arguments ih =>
      intro hall hprinted level
      obtain ⟨hn, hmore⟩ := List.forall_mem_cons.mp hall
      obtain ⟨hnp, hmorep⟩ := List.forall_mem_cons.mp hprinted
      obtain ⟨text, hp, hr, he⟩ := hnp level
      obtain ⟨texts, hps, hrs, hes⟩ := ih hmore hmorep level
      exact ⟨bracketed (!n.isPlainArgument) text :: texts, yields_argument hp hps,
        .cons (reads_argument hn hr) hrs, List.forall_mem_cons.mpr ⟨he.bracketed _, hes⟩⟩

theorem printed_application {b : Binder} {arguments : List Node} (hb : b.IsNamed)
    (hne : arguments ≠ []) (hall : ∀ n ∈ arguments, n.IsArgument)
    (hprinted : ∀ n ∈ arguments, Printed indent n) :
    Printed indent (.application (.binder b) arguments) := by
  intro level
  obtain ⟨texts, hp, hr, he⟩ := printed_arguments hall hprinted level
  refine ⟨" ".intercalate (b.text :: texts), yields_application b hp, ?_, ?_⟩
  · refine (Reads.intercalate (.cons (reads_name hb) hr) (List.cons_ne_nil _ _)).imp ?_
    exact fun _ => asPrimary_application hne
  · exact Edged.intercalate (List.cons_ne_nil _ _)
      (List.forall_mem_cons.mpr ⟨edged_name hb, he⟩)

/-- Names are pieces that read as names. -/
theorem reads_names : ∀ {bs : List Binder}, (∀ b ∈ bs, b.IsNamed) →
    List.Forall₂ (Reads Clear) (bs.map Binder.text) (bs.map AsName) := by
  intro bs h
  rw [List.forall₂_map_left_iff, List.forall₂_map_right_iff, List.forall₂_same]
  exact fun b hb => reads_name (h b hb)

theorem printed_function {params : List Binder} {body : Node} (pos : Option Position)
    (hne : params ≠ []) (hall : ∀ b ∈ params, b.IsNamed) (hb : body.IsCluster)
    (hprinted : Printed indent body) :
    Printed indent (.function (params.map fun b => (b, none)) body pos) := by
  intro level
  obtain ⟨text, hp, hr, he⟩ := hprinted level
  have hnames : params.map Binder.text ≠ [] := fun h => hne (List.map_eq_nil_iff.mp h)
  refine ⟨functionSource (params.map Binder.text) text, yields_function params pos hp, ?_, ?_,
    he.closes.append _⟩
  · have hfun : Reads Free "fun " (Single .funWord "fun") :=
      (Reads.spelling (k := .funWord) rfl).before_blank
    have hhead := (hfun.free (Reads.intercalate (reads_names hall) hnames)).before_spelling
      (k := .arrow) rfl
    refine (hhead.free (hr.imp fun _ => AsWritten.cluster hb)).imp ?_
    exact fun _ => asExpr_function pos hne
  · exact ((Opens.append ⟨'f', rfl, by decide⟩ _).append _).append _

/-! ## Statements between brackets -/

/-- Lines, each ended by a newline. -/
def endedLines : List String → String
  | [] => ""
  | line :: rest => line ++ "\n" ++ endedLines rest

theorem intercalate_endedLines : ∀ {lines : List String}, lines ≠ [] →
    "\n".intercalate lines ++ "\n" = endedLines lines := by
  intro lines
  induction lines with
  | nil => exact fun hne => absurd rfl hne
  | cons line lines ih =>
      intro _
      cases lines with
      | nil =>
          rw [String.intercalate_singleton, endedLines, endedLines, String.append_empty]
      | cons next lines =>
          rw [String.intercalate_cons_cons, endedLines, String.append_assoc,
            ih (List.cons_ne_nil _ _)]

/-- A margin is filler if the indentation is. -/
theorem reads_margin (hindent : ∀ c ∈ indent.toList, Text.isFiller c = true) (level : Nat) :
    Reads Free (Record.repeated indent level) (· = []) := by
  refine .filler ?_
  induction level with
  | zero => exact nofun
  | succ level ih =>
      rw [Record.repeated, String.toList_append]
      exact List.forall_mem_append.mpr ⟨ih, hindent⟩

/-- A statement is not empty. -/
theorem isNull_stmt {n : Node} (h : n.IsStmt) : n.isNull = false := by
  cases h with
  | cluster h =>
      cases h with
      | enclosed _ _ => rfl
      | expr h => cases h <;> rfl
  | _ => rfl

/-- Statements are printed as lines that read as what stands between brackets. -/
theorem printed_lines (hindent : ∀ c ∈ indent.toList, Text.isFiller c = true) :
    ∀ {stmts : List Node}, (∀ n ∈ stmts, n.IsStmt) → (∀ n ∈ stmts, Printed indent n) →
      ∀ level, ∃ lines, Yields (printLines indent stmts) level lines ∧
        lines.length = stmts.length ∧ Reads Free (endedLines lines) (AsItems stmts) := by
  intro stmts
  induction stmts with
  | nil =>
      intro _ _ level
      refine ⟨[], rfl, rfl, (Reads.filler (u := "") nofun).imp ?_⟩
      rintro ts rfl
      exact asItems_nil
  | cons n stmts ih =>
      intro hall hprinted level
      obtain ⟨hn, hmore⟩ := List.forall_mem_cons.mp hall
      obtain ⟨hnp, hmorep⟩ := List.forall_mem_cons.mp hprinted
      obtain ⟨text, hp, hr, -⟩ := hnp level
      obtain ⟨lines, hps, hlen, hrs⟩ := ih hmore hmorep level
      -- the level is the same for every line, since each comes back to it
      refine ⟨(Record.repeated indent level ++ text) :: lines,
        yields_line (isNull_stmt hn) hp hps, congrArg (· + 1) hlen, ?_⟩
      · have hline := (reads_margin hindent level).behind_filler
          (hr.imp fun _ => AsWritten.statement hn)
        refine ((hline.append .newline fun rest _ => ?_).free hrs).imp fun _ => asItems_cons
        exact ⟨'\n', rest, rfl, by decide⟩

theorem opens_opening (form : Enclosure) : Opens form.opening := by
  cases form with
  | block => exact ⟨'\x7b', rfl, by decide⟩
  | scope => exact ⟨'[', rfl, by decide⟩

theorem closes_closing (form : Enclosure) : Closes form.closing := by
  cases form with
  | block => exact ⟨'\x7d', rfl, rfl⟩
  | scope => exact ⟨']', rfl, rfl⟩

theorem reads_opening (form : Enclosure) :
    Reads Free form.opening (Single form.opener form.opening) := by
  cases form with
  | block => exact .bracket (by decide) rfl
  | scope => exact .bracket (by decide) rfl

theorem reads_closing (form : Enclosure) :
    Reads Free form.closing (Single form.closer form.closing) := by
  cases form with
  | block => exact .bracket (by decide) rfl
  | scope => exact .bracket (by decide) rfl

theorem printed_enclosed (hindent : ∀ c ∈ indent.toList, Text.isFiller c = true)
    (form : Enclosure) {stmts : List Node} (hall : ∀ n ∈ stmts, n.IsStmt)
    (hprinted : ∀ n ∈ stmts, Printed indent n) : Printed indent (.enclosed form stmts) := by
  intro level
  cases stmts with
  | nil =>
      refine ⟨form.opening ++ form.closing, ?_, ?_, (opens_opening form).append _,
        (closes_closing form).append _⟩
      · rw [print]
        rfl
      · exact ((reads_opening form).free (reads_closing form)).clear.imp
          fun _ => asEnclosed_nil form
  | cons n stmts =>
      obtain ⟨lines, hp, hlen, hr⟩ := printed_lines hindent hall hprinted (level + 1)
      have hne : lines ≠ [] := List.ne_nil_of_length_pos (hlen ▸ Nat.succ_pos _)
      -- no statement is empty, so the brackets are not written as empty ones
      have hnull : ¬ (n :: stmts).all isNull = true := by
        rw [List.all_cons, isNull_stmt (List.forall_mem_cons.mp hall).1]
        exact Bool.noConfusion
      -- the last line is ended by the newline before the closing bracket
      have htext : enclosedSource form lines (Record.repeated indent level) =
          form.opening ++ "\n" ++ endedLines lines ++
            (Record.repeated indent level ++ form.closing) := by
        rw [enclosedSource, ← intercalate_endedLines hne]
        simp only [String.append_assoc]
      refine ⟨enclosedSource form lines (Record.repeated indent level),
        yields_enclosed form hnull hp, ?_,
        ((((((opens_opening form).append _).append _).append _).append _).append _),
        (closes_closing form).append _⟩
      · rw [htext]
        have hclosing := (reads_margin hindent level).behind_filler (reads_closing form)
        exact ((((reads_opening form).free .newline).free hr).free hclosing).clear.imp
          fun _ => asEnclosed_lines form

/-! ## Statements -/

theorem printed_conditional {condition thenBlock : Node} (hc : condition.IsExpr)
    (ht : thenBlock.IsCluster) (hcondition : Printed indent condition)
    (hthen : Printed indent thenBlock) :
    Printed indent (.conditional condition thenBlock none) := by
  intro level
  obtain ⟨conditionText, hcp, hcr, -⟩ := hcondition level
  obtain ⟨thenText, htp, htr, hte⟩ := hthen level
  refine ⟨"if " ++ bracketed (!condition.isPlainCondition) conditionText ++ " " ++ thenText ++ "",
    yields_conditional hcp htp (yields_pure "" level), ?_, ?_, ?_⟩
  · rw [String.append_empty]
    have hif : Reads Free "if " (Single .ifWord "if") :=
      (Reads.spelling (k := .ifWord) rfl).before_blank
    refine ((hif.free (reads_condition hc hcr)).spaced
      (htr.imp fun _ => AsWritten.cluster ht)).imp ?_
    exact fun _ => asStatement_conditional
  · exact (((Opens.append ⟨'i', rfl, by decide⟩ _).append _).append _).append _
  · rw [String.append_empty]
    exact hte.closes.append _

theorem printed_conditionalElse {condition thenBlock elseBlock : Node} (hc : condition.IsExpr)
    (ht : thenBlock.IsCluster) (he : elseBlock.IsCluster)
    (hcondition : Printed indent condition) (hthen : Printed indent thenBlock)
    (helse : Printed indent elseBlock) :
    Printed indent (.conditional condition thenBlock (some elseBlock)) := by
  intro level
  obtain ⟨conditionText, hcp, hcr, -⟩ := hcondition level
  obtain ⟨thenText, htp, htr, -⟩ := hthen level
  obtain ⟨elseText, hep, her, hee⟩ := helse level
  refine ⟨"if " ++ bracketed (!condition.isPlainCondition) conditionText ++ " " ++ thenText ++
    (" else " ++ elseText), yields_conditional hcp htp (yields_else hep), ?_, ?_,
    (hee.closes.append _).append _⟩
  · rw [← String.append_assoc]
    have hif : Reads Free "if " (Single .ifWord "if") :=
      (Reads.spelling (k := .ifWord) rfl).before_blank
    have hhead := (hif.free (reads_condition hc hcr)).spaced
      (htr.imp fun _ => AsWritten.cluster ht)
    refine ((hhead.before_spelling (k := .elseWord) rfl).free
      (her.imp fun _ => AsWritten.cluster he)).imp ?_
    exact fun _ => asStatement_conditionalElse
  · exact (((Opens.append ⟨'i', rfl, by decide⟩ _).append _).append _).append _

theorem printed_loop {condition body : Node} (hc : condition.IsExpr) (hb : body.IsCluster)
    (hcondition : Printed indent condition) (hbody : Printed indent body) :
    Printed indent (.loop condition body) := by
  intro level
  obtain ⟨conditionText, hcp, hcr, -⟩ := hcondition level
  obtain ⟨bodyText, hbp, hbr, hbe⟩ := hbody level
  refine ⟨"while " ++ bracketed (!condition.isPlainCondition) conditionText ++ " " ++ bodyText,
    yields_loop hcp hbp, ?_, ?_, hbe.closes.append _⟩
  · have hwhile : Reads Free "while " (Single .whileWord "while") :=
      (Reads.spelling (k := .whileWord) rfl).before_blank
    refine ((hwhile.free (reads_condition hc hcr)).spaced
      (hbr.imp fun _ => AsWritten.cluster hb)).imp ?_
    exact fun _ => asStatement_loop
  · exact ((Opens.append ⟨'w', rfl, by decide⟩ _).append _).append _

theorem opens_keyword (form : BindingForm) : Opens form.keyword := by
  cases form with
  | value => exact ⟨'l', rfl, by decide⟩
  | template => exact ⟨'l', rfl, by decide⟩

theorem printed_binding {named : Binder} {params : Option (List Binder)} {codes : Node}
    (form : BindingForm) (hn : named.IsNamed)
    (hall : ∀ bs ∈ params, bs ≠ [] ∧ ∀ b ∈ bs, b.IsNamed) (hc : codes.IsCluster)
    (hcodes : Printed indent codes) : Printed indent (.binding form named params codes) := by
  intro level
  obtain ⟨text, hp, hr, he⟩ := hcodes level
  have hparams : ∀ b ∈ params.getD [], b.IsNamed := by
    cases params with
    | none => exact nofun
    | some bs => exact (hall bs rfl).2
  refine ⟨bindingSource form named params text, yields_binding form named params hp, ?_, ?_,
    he.closes.append _⟩
  · have hwords := Reads.intercalate
      (.cons (reads_keyword form) (.cons (reads_name hn) (reads_names hparams)))
      (List.cons_ne_nil _ _)
    refine ((hwords.before_spelling (k := .equals) rfl).free
      (hr.imp fun _ => AsWritten.cluster hc)).imp ?_
    exact fun _ => asStatement_binding fun bs hbs => (hall bs hbs).1
  · rw [bindingSource, String.intercalate_cons_cons]
    exact ((((opens_keyword form).append _).append _).append _).append _

/-! ## All nodes -/

mutual

theorem IsExpr.printed (hindent : ∀ c ∈ indent.toList, Text.isFiller c = true) :
    ∀ {n : Node}, n.IsExpr → Printed indent n
  | _, .name hb => printed_binder hb
  | _, .number pos hv => printed_number pos hv
  | _, .string pos hl => printed_string pos hl
  | _, .negative hn => printed_negative hn (hn.printed hindent)
  | _, .binary hl hop hr =>
      printed_binary hl hop hr (hl.printed hindent) (hr.printed hindent)
  | _, .application hb hne hall =>
      printed_application hb hne hall fun n hn => (hall n hn).printed hindent
  | _, .function pos hne hall hb => printed_function pos hne hall hb (hb.printed hindent)

theorem IsArgument.printed (hindent : ∀ c ∈ indent.toList, Text.isFiller c = true) :
    ∀ {n : Node}, n.IsArgument → Printed indent n
  | _, .expr h => h.printed hindent
  | _, .underline pos => printed_underline pos
  | _, .enclosed form hall =>
      printed_enclosed hindent form hall fun n hn => (hall n hn).printed hindent

theorem IsCluster.printed (hindent : ∀ c ∈ indent.toList, Text.isFiller c = true) :
    ∀ {n : Node}, n.IsCluster → Printed indent n
  | _, .expr h => h.printed hindent
  | _, .enclosed form hall =>
      printed_enclosed hindent form hall fun n hn => (hall n hn).printed hindent

theorem IsStmt.printed (hindent : ∀ c ∈ indent.toList, Text.isFiller c = true) :
    ∀ {n : Node}, n.IsStmt → Printed indent n
  | _, .cluster h => h.printed hindent
  | _, .conditional hc ht =>
      printed_conditional hc ht (hc.printed hindent) (ht.printed hindent)
  | _, .conditionalElse hc ht he =>
      printed_conditionalElse hc ht he (hc.printed hindent) (ht.printed hindent)
        (he.printed hindent)
  | _, .loop hc hb => printed_loop hc hb (hc.printed hindent) (hb.printed hindent)
  | _, .binding form hn hall hc => printed_binding form hn hall hc (hc.printed hindent)

end

/-! ## Programs -/

/-- The indentation of source text is filler. -/
theorem sourceIndent_filler : ∀ c ∈ sourceIndent.toList, Text.isFiller c = true :=
  List.all_eq_true.mp (by decide)

/-- A program is printed as lines that read as the program. -/
theorem printed_program (hindent : ∀ c ∈ indent.toList, Text.isFiller c = true) :
    ∀ {stmts : List Node}, (∀ n ∈ stmts, n.IsEntry) → ∀ level,
      ∃ text, Yields (printProgram indent stmts) level text ∧
        Reads Free text (AsProgram stmts) ∧
          ∀ c ∈ text.toList.getLast?, Program.isSeparator c = true := by
  intro stmts
  induction stmts with
  | nil =>
      intro _ level
      refine ⟨"", rfl, (Reads.filler (u := "") nofun).imp ?_, nofun⟩
      rintro ts rfl
      exact asProgram_nil
  | cons n stmts ih =>
      intro hall level
      obtain ⟨hn, hmore⟩ := List.forall_mem_cons.mp hall
      obtain ⟨rest, hps, hrs, hlast⟩ := ih hmore level
      -- an empty line is written as nothing, and is read as nothing before its newline
      have hentry : ∃ text, Yields (print indent n) level text ∧
          Reads Clear text fun us => us = [] ∧ n = .null ∨ AsStatement n us := by
        rcases hn with rfl | hn
        · exact ⟨"", rfl, (Reads.filler (u := "") nofun).clear.imp fun _ hts => .inl ⟨hts, rfl⟩⟩
        · obtain ⟨text, hp, hr, -⟩ := hn.printed hindent level
          exact ⟨text, hp, hr.imp fun _ hts => .inr (AsWritten.statement hn hts)⟩
      obtain ⟨text, hp, hr⟩ := hentry
      refine ⟨text ++ "\n" ++ rest, ?_, ?_, ?_⟩
      · rw [printProgram]
        exact hp.bind (hps.bind (yields_pure _ _))
      · have hline := hr.append .newline fun more _ => ⟨'\n', more, rfl, by decide⟩
        exact (hline.free hrs).imp fun _ => asProgram_cons
      · intro c hc
        rw [String.toList_append, List.getLast?_append, String.toList_append,
          List.getLast?_append] at hc
        cases hrest : rest.toList.getLast? with
        | none =>
            rw [hrest] at hc
            obtain rfl := Option.some.inj hc
            rfl
        | some d =>
            rw [hrest] at hc
            obtain rfl := Option.some.inj hc
            exact hlast d hrest

end Node

namespace Program

/-- A text that a printed statement ends is completed by a newline. -/
theorem complete_open {text : String} (h : Closes text) :
    complete text.toList = (text ++ "\n").toList := by
  obtain ⟨c, hc, hsep⟩ := h
  rw [complete_unseparated hc hsep, String.toList_append]
  rfl

/-- A source whose completion reads as tokens of a program is read as the program. -/
theorem read_tokens {source text : String} {P : List Node → Prop}
    (h : Reads Free text fun ts => ∃ d : Derivation, d.tokens = ts ∧ d.Greedy ∧ P d.nodes)
    (hc : complete source.toList = text.toList) : ∃ out, read source = .ok out ∧ P out := by
  obtain ⟨ts, ⟨d, rfl, hg, hd⟩, hshort, htokens⟩ := h.whole
  refine ⟨d.nodes, ?_, hd⟩
  refine read_done ?_ ?_
  · rw [hc, statements_iff, splits_iff, htokens]
    exact ⟨rfl, d, rfl, hg, rfl⟩
  · rw [hc, htokens]
    exact longNumber?_none hshort

/-- A source whose completion reads as a program is read as it. -/
theorem read_piece {source text : String} {stmts : List Node}
    (h : Reads Free text (AsProgram stmts)) (hc : complete source.toList = text.toList) :
    ∃ out, read source = .ok out ∧ Node.allAgree out stmts = true :=
  read_tokens h hc

/-- A well-formed statement by itself has a source form, and reading it gives one statement that
    agrees with it. -/
theorem read_statement {n : Node} (hn : n.IsStmt) : ∃ text, n.source = .ok text ∧
    ∃ m, read text = .ok [m] ∧ m.agrees n = true := by
  obtain ⟨text, hp, hr, he⟩ := hn.printed Node.sourceIndent_filler 0
  -- one statement is completed by the newline that a program writes behind it
  have hline : Reads Free (text ++ "\n") (AsProgram [n]) := by
    refine (hr.append .newline fun more _ => ⟨'\n', more, rfl, by decide⟩).imp ?_
    rintro ts ⟨us, vs, rfl, hus, hvs⟩
    exact asProgram_cons ⟨us ++ vs, [], (List.append_nil _).symm,
      ⟨us, vs, rfl, .inr (Node.AsWritten.statement hn hus), hvs⟩, asProgram_nil⟩
  obtain ⟨out, hread, hagree⟩ := read_piece hline (complete_open he.closes)
  refine ⟨text, congrArg Prod.fst hp, ?_⟩
  cases out with
  | nil => exact nomatch hagree
  | cons m ms =>
      obtain ⟨hm, hms⟩ := Bool.and_eq_true_iff.mp hagree
      cases ms with
      | nil => exact ⟨m, hread, hm⟩
      | cons m' ms => exact nomatch hms

/-- **ROUND TRIP**: a well-formed program has a source form, and reading it gives a program
    that agrees with it, entry by entry.  So does a well-formed statement by itself. -/
theorem read_source :
    (∀ stmts : List Node, (∀ n ∈ stmts, n.IsEntry) →
      ∃ text, Node.programSource stmts = .ok text ∧
        ∃ out, read text = .ok out ∧ Node.allAgree out stmts = true) ∧
    ∀ n : Node, n.IsStmt → ∃ text, n.source = .ok text ∧
      ∃ m, read text = .ok [m] ∧ m.agrees n = true := by
  constructor
  · intro stmts hall
    obtain ⟨text, hp, hr, hlast⟩ := Node.printed_program Node.sourceIndent_filler hall 0
    exact ⟨text, congrArg Prod.fst hp, read_piece hr (complete_separated hlast)⟩
  · intro n hn
    exact read_statement hn

/-- A loop whose body subtracts a difference, behind an empty line. -/
def differenceLoop : List Node :=
  let x := Node.binder ⟨"x", none⟩
  let less (a b : Node) := Node.binary a ⟨.minus, none⟩ b
  [.null, .loop x (.enclosed .block [less x (less x (.number 1 none))])]

/-- A difference that is subtracted comes back as one. -/
theorem read_source_difference :
    (∀ n ∈ differenceLoop, n.IsEntry) ∧ ∃ text, Node.programSource differenceLoop = .ok text ∧
      ∃ out, read text = .ok out ∧ Node.allAgree out differenceLoop = true := by
  have hx : IsName "x".toList := ⟨by decide,
    List.forall_mem_singleton.mpr (by decide), fun c hc => Option.some.inj hc ▸ by decide,
    by decide⟩
  have hminus : Symbol.minus ≠ .dummy := by decide
  have hone : 1 < 10 ^ Text.digitLimit := Nat.one_lt_pow (by decide) (by decide)
  have hentries : ∀ n ∈ differenceLoop, n.IsEntry := by
    refine List.forall_mem_cons.mpr ⟨.inl rfl, List.forall_mem_singleton.mpr (.inr ?_)⟩
    refine .loop (.name hx) (.enclosed .block (List.forall_mem_singleton.mpr ?_))
    exact .cluster (.expr (.binary (.name hx) hminus
      (.binary (.name hx) hminus (.number none hone))))
  exact ⟨hentries, read_source.1 differenceLoop hentries⟩

end Program

end BasicSyntax
