import BasicSyntax.Proofs.Source.Drawn
import Mathlib.Data.List.Forall2

/-! # Levels — what indentation does to a printed text

    Printing carries the level of indentation along as a state, and brackets change it on the
    way in and on the way out.  Two runs of printing are followed side by side, the second `k`
    levels deeper than the first (`Shifts`).  A step of the two either gives up in both runs, for
    the same reason, or has a result in both, and each run is then at the level where it began.

    What relates the two results is the layout: the deeper text is the other one with `k`
    indentations put behind every newline (`Text.indented`).  Only a newline that printing writes
    itself has indentation behind it, so this asks that no name brings newlines of its own; texts
    never do, because printing encodes them.

    The induction over trees proves all of it at once (`print_shifts`), for trees that are printed
    and for trees that are not. -/

namespace BasicSyntax

open Text

/-- A text with a margin put behind every newline. -/
def Text.indented (margin text : String) : String :=
  String.ofList (text.toList.flatMap fun c =>
    if c = '\n' then '\n' :: margin.toList else [c])

/-- A mark that is a name has no newline in it. -/
def Mark.OneLine : Mark → Prop
  | .name text => '\n' ∉ text.toList
  | _ => True

/-- No name in a tree has a newline in it. -/
def Node.NamesOneLine (n : Node) : Prop := ∀ m ∈ n.marks, m.1.OneLine

/-! ## Texts and margins -/

namespace Text

variable {margin x y : String}

theorem indented_append (margin x y : String) :
    indented margin (x ++ y) = indented margin x ++ indented margin y := by
  rw [indented, String.toList_append, List.flatMap_append, String.ofList_append]
  rfl

/-- A text without newlines stays as it is. -/
theorem indented_line (h : '\n' ∉ x.toList) : indented margin x = x := by
  have hsame : (x.toList.flatMap fun c => if c = '\n' then '\n' :: margin.toList else [c]) =
      x.toList.flatMap fun c => [c] := by
    refine List.flatMap_congr fun c hc => if_neg ?_
    rintro rfl
    exact h hc
  rw [indented, hsame, List.flatMap_singleton', String.ofList_toList]

theorem indented_newline : indented margin "\n" = "\n" ++ margin := by
  rw [← String.toList_inj, indented, String.toList_ofList, String.toList_append]
  simp

theorem encodeLiteral_line (literal : List Char) : '\n' ∉ encodeLiteral literal := by
  induction literal with
  | nil => exact List.not_mem_nil
  | cons c literal ih =>
      rw [encodeLiteral]
      split
      · simp [ih]
      · next hc =>
          rw [beq_iff_eq] at hc
          exact List.not_mem_cons_of_ne_of_not_mem (Ne.symm hc) ih

/-- A written text has no newline. -/
theorem writeLiteral_line (literal : String) : '\n' ∉ (writeLiteral literal).toList := by
  rw [writeLiteral, String.toList_ofList]
  simp [encodeLiteral_line]

end Text

/-- Indentation deepens by as many copies as levels are added. -/
theorem Record.repeated_add (text : String) (m n : Nat) :
    repeated text (m + n) = repeated text m ++ repeated text n := by
  induction n with
  | zero => exact String.append_empty.symm
  | succ n ih =>
      show repeated text (m + n) ++ text = _
      rw [ih, String.append_assoc]
      rfl

theorem Record.repeated_line {text : String} (h : '\n' ∉ text.toList) (n : Nat) :
    '\n' ∉ (repeated text n).toList := by
  induction n with
  | zero => exact List.not_mem_nil
  | succ n ih =>
      rw [repeated, String.toList_append, List.mem_append]
      exact not_or.mpr ⟨ih, h⟩

/-! ## Texts that differ by a margin -/

/-- The second text is the first with a margin behind its newlines. -/
def Indents (margin x y : String) : Prop := y = indented margin x

section

variable {margin x y x' y' : String}

theorem Indents.append (h : Indents margin x y) (h' : Indents margin x' y') :
    Indents margin (x ++ x') (y ++ y') := by
  rw [Indents, indented_append, ← h, ← h']

theorem indents_line (h : '\n' ∉ x.toList) : Indents margin x x := (indented_line h).symm

theorem Indents.bracketed (wanted : Bool) (h : Indents margin x y) :
    Indents margin (bracketed wanted x) (bracketed wanted y) := by
  cases wanted with
  | true => exact ((indents_line (by decide)).append h).append (indents_line (by decide))
  | false => exact h

/-- Texts with a separator between any two. -/
theorem Indents.intercalate {sep sep' : String} (hsep : Indents margin sep sep') :
    ∀ {xs ys : List String}, List.Forall₂ (Indents margin) xs ys →
      Indents margin (sep.intercalate xs) (sep'.intercalate ys) := by
  intro xs ys h
  induction h with
  | nil => exact indents_line List.not_mem_nil
  | @cons x y xs ys hx hxs ih =>
      cases hxs with
      | nil =>
          rw [String.intercalate_singleton, String.intercalate_singleton]
          exact hx
      | cons hx' hxs =>
          rw [String.intercalate_cons_cons, String.intercalate_cons_cons]
          exact (hx.append hsep).append ih

/-- Names that have no newlines stay as they are. -/
theorem indents_names {names : List String} (h : ∀ name ∈ names, '\n' ∉ name.toList) :
    List.Forall₂ (Indents margin) names names :=
  List.forall₂_same.mpr fun name hname => indents_line (h name hname)

/-- Lines at a margin of their own, the deeper ones with the other margin before it. -/
def LineIndents (margin x y : String) : Prop := ∃ z, Indents margin x z ∧ y = margin ++ z

/-- Lines with a newline before each. -/
theorem intercalate_lines : ∀ {xs ys : List String}, List.Forall₂ (LineIndents margin) xs ys →
    xs ≠ [] → Indents margin ("\n" ++ "\n".intercalate xs) ("\n" ++ "\n".intercalate ys) := by
  have hnewline : Indents margin "\n" ("\n" ++ margin) := indented_newline.symm
  intro xs ys h
  induction h with
  | nil => exact fun hne => absurd rfl hne
  | @cons x y xs ys hx hxs ih =>
      intro _
      obtain ⟨z, hz, rfl⟩ := hx
      have hfirst : Indents margin ("\n" ++ x) ("\n" ++ (margin ++ z)) := by
        rw [← String.append_assoc]
        exact hnewline.append hz
      cases hxs with
      | nil =>
          rw [String.intercalate_singleton, String.intercalate_singleton]
          exact hfirst
      | cons hx' hxs =>
          have hrest := hfirst.append (ih (List.cons_ne_nil _ _))
          rw [String.intercalate_cons_cons, String.intercalate_cons_cons]
          simpa only [String.append_assoc] using hrest

end

/-! ## Two runs side by side -/

namespace Printing

variable {α β : Type} {R : α → α → Prop} {S : β → β → Prop} {k : Nat}

/-- The second step, `k` levels deeper, does what the first does: both give up for one reason, or
    both have results, which are related.  Each ends at the level where it began. -/
def Shifts (k : Nat) (R : α → α → Prop) (step step' : Printing α) : Prop :=
  ∀ level,
    (∃ why, step level = (.error why, level) ∧ step' (level + k) = (.error why, level + k)) ∨
    ∃ a a', step level = (.ok a, level) ∧ step' (level + k) = (.ok a', level + k) ∧ R a a'

theorem shifts_pure {a a' : α} (h : R a a') : Shifts k R (pure a) (pure a') :=
  fun _ => .inr ⟨a, a', rfl, rfl, h⟩

theorem shifts_refuse (why : PrintFault) : Shifts k R (refuse why) (refuse why) :=
  fun _ => .inl ⟨why, rfl, rfl⟩

/-- How long a number is does not depend on the level. -/
theorem shifts_number {R : String → String → Prop} {value : Int}
    (h : R (toString value) (toString value)) : Shifts k R (number value) (number value) := by
  rw [number]
  split
  · exact shifts_pure h
  · exact shifts_refuse .longNumber

theorem Shifts.bind {step step' : Printing α} {next next' : α → Printing β}
    (h : Shifts k R step step') (hnext : ∀ a a', R a a' → Shifts k S (next a) (next' a')) :
    Shifts k S (step >>= next) (step' >>= next') := by
  intro level
  rw [bind_run, bind_run]
  rcases h level with ⟨why, h₁, h₂⟩ | ⟨a, a', h₁, h₂, ha⟩
  · rw [h₁, h₂]
    exact .inl ⟨why, rfl, rfl⟩
  · rw [h₁, h₂]
    exact hnext a a' ha level

/-- Going one level deeper and coming back. -/
theorem Shifts.deeper {step step' : Printing α} (h : Shifts k R step step') :
    Shifts k R (deeper step) (deeper step') := by
  intro level
  rw [deeper_run, deeper_run, Nat.add_right_comm]
  rcases h (level + 1) with ⟨why, h₁, h₂⟩ | ⟨a, a', h₁, h₂, ha⟩
  · rw [h₁, h₂, Nat.add_right_comm]
    exact .inl ⟨why, rfl, rfl⟩
  · rw [h₁, h₂, Nat.add_right_comm]
    exact .inr ⟨a, a', rfl, rfl, ha⟩

/-- The deeper margin is the other one behind `k` indentations. -/
theorem shifts_margin (indent : String) (k : Nat) :
    Shifts k (fun x y => (∃ level, x = Record.repeated indent level) ∧
      y = Record.repeated indent k ++ x) (margin indent) (margin indent) := by
  intro level
  refine .inr ⟨_, _, rfl, rfl, ⟨level, rfl⟩, ?_⟩
  rw [Nat.add_comm, Record.repeated_add]

end Printing

open Printing

/-! ## Trees -/

section

variable {indent : String} {k : Nat}

theorem names_oneLine {params : List (Binder × Option Node)}
    (h : ∀ m ∈ paramMarks params, m.1.OneLine) {names : List String}
    (hnames : Node.paramNames params = .ok names) : ∀ name ∈ names, '\n' ∉ name.toList := by
  intro name hname
  obtain ⟨pos, hmem⟩ := Node.paramNames_marks hnames name hname
  exact h _ hmem

mutual

/-- **TWO LEVELS**: printing a tree deeper comes to the same end as printing it, and ends at the
    level where it began.  What is printed differs by the margin. -/
theorem print_shifts (hindent : '\n' ∉ indent.toList) : ∀ n : Node,
    Shifts k (fun x y => n.NamesOneLine → Indents (Record.repeated indent k) x y)
      (Node.print indent n) (Node.print indent n)
  | .binder b => by
      rw [Node.print]
      refine shifts_pure fun h => indents_line ?_
      rw [Node.NamesOneLine, Node.marks, List.forall_mem_singleton] at h
      exact h
  | .unit pos => shifts_refuse _
  | .number value pos => by
      rw [Node.print]
      exact shifts_number fun _ => indents_line (number_line value)
  | .string literal pos => by
      rw [Node.print]
      exact shifts_pure fun _ => indents_line (writeLiteral_line literal)
  | .underline pos => by
      rw [Node.print]
      exact shifts_pure fun _ => indents_line (by decide)
  | .function params body pos => by
      rw [Node.print]
      cases hnames : Node.paramNames params with
      | error why => exact shifts_refuse (.noSource why)
      | ok names =>
          refine (print_shifts hindent body).bind fun x y hxy => shifts_pure fun h => ?_
          rw [Node.NamesOneLine, Node.marks, List.forall_mem_cons, List.forall_mem_append] at h
          have hjoined : Indents (Record.repeated indent k) (" ".intercalate names)
              (" ".intercalate names) :=
            (indents_line (by decide)).intercalate
              (indents_names (names_oneLine h.2.1 hnames))
          exact (((indents_line (by decide)).append hjoined).append
            (indents_line (by decide))).append (hxy h.2.2)
  | .template params body pos => shifts_refuse _
  | .operator op => by
      rw [Node.print]
      exact shifts_pure fun _ => indents_line (by cases op.symbol <;> decide)
  | .negative n => by
      rw [Node.print]
      refine (print_shifts hindent n).bind fun x y hxy => shifts_pure fun h => ?_
      rw [Node.NamesOneLine, Node.marks] at h
      exact (indents_line (by decide)).append ((hxy h).bracketed _)
  | .binary left op right => by
      rw [Node.print]
      refine (print_shifts hindent left).bind fun x y hxy => ?_
      refine (print_shifts hindent right).bind fun x' y' hxy' => shifts_pure fun h => ?_
      rw [Node.NamesOneLine, Node.marks, List.forall_mem_append, List.forall_mem_cons] at h
      have hblank : Indents (Record.repeated indent k) " " " " := indents_line (by decide)
      have hop : Indents (Record.repeated indent k) op.symbol.text op.symbol.text :=
        indents_line (by cases op.symbol <;> decide)
      exact (((((hxy h.1).bracketed _).append hblank).append hop).append hblank).append
        ((hxy' h.2.2).bracketed _)
  | .application child arguments => by
      cases child with
      | binder b =>
          rw [Node.print]
          refine (printArguments_shifts hindent arguments).bind fun xs ys hxs =>
            shifts_pure fun h => ?_
          rw [Node.NamesOneLine, Node.marks, List.forall_mem_append, Node.marks,
            List.forall_mem_singleton] at h
          exact (indents_line (by decide)).intercalate
            (.cons (indents_line h.1) (hxs h.2))
      | _ => exact shifts_refuse _
  | .enclosed form stmts => by
      have hopening : Indents (Record.repeated indent k) form.opening form.opening :=
        indents_line (by cases form <;> decide)
      have hclosing : Indents (Record.repeated indent k) form.closing form.closing :=
        indents_line (by cases form <;> decide)
      by_cases hall : stmts.all Node.isNull = true
      · rw [Node.print, if_pos hall]
        exact shifts_pure fun _ => hopening.append hclosing
      · rw [Node.print_enclosed hall]
        refine (printLines_shifts hindent stmts).deeper.bind fun xs ys hxs => ?_
        refine (shifts_margin indent k).bind fun x y hxy => shifts_pure fun h => ?_
        rw [Node.NamesOneLine, Node.marks] at h
        obtain ⟨⟨level, rfl⟩, rfl⟩ := hxy
        -- the last newline has the margin of the closing bracket behind it
        have hlast : Indents (Record.repeated indent k)
            ("\n" ++ Record.repeated indent level)
            ("\n" ++ (Record.repeated indent k ++ Record.repeated indent level)) := by
          rw [Indents, indented_append, indented_newline,
            indented_line (Record.repeated_line hindent level), String.append_assoc]
        have hbody := intercalate_lines (hxs.2 h) fun hnil => hall (hxs.1 hnil)
        have hsum := ((hopening.append hbody).append hlast).append hclosing
        simpa only [Node.enclosedSource, String.append_assoc] using hsum
  | .null => by
      rw [Node.print]
      exact shifts_pure fun _ => indents_line List.not_mem_nil
  | .conditional condition thenBlock elseBlock => by
      rw [Node.print]
      refine (print_shifts hindent condition).bind fun x₁ y₁ h₁ => ?_
      refine (print_shifts hindent thenBlock).bind fun x₂ y₂ h₂ => ?_
      refine (printElse_shifts hindent elseBlock).bind fun x₃ y₃ h₃ => shifts_pure fun h => ?_
      rw [Node.NamesOneLine, Node.marks, List.forall_mem_append, List.forall_mem_append] at h
      exact ((((indents_line (by decide)).append ((h₁ h.1).bracketed _)).append
        (indents_line (by decide))).append (h₂ h.2.1)).append (h₃ h.2.2)
  | .loop condition body => by
      rw [Node.print]
      refine (print_shifts hindent condition).bind fun x₁ y₁ h₁ => ?_
      refine (print_shifts hindent body).bind fun x₂ y₂ h₂ => shifts_pure fun h => ?_
      rw [Node.NamesOneLine, Node.marks, List.forall_mem_append] at h
      exact (((indents_line (by decide)).append ((h₁ h.1).bracketed _)).append
        (indents_line (by decide))).append (h₂ h.2)
  | .binding form named params codes => by
      rw [Node.print]
      refine (print_shifts hindent codes).bind fun x y hxy => shifts_pure fun h => ?_
      rw [Node.NamesOneLine, Node.marks, List.forall_mem_cons, List.forall_mem_append] at h
      have hparams : ∀ name ∈ (params.getD []).map Binder.text, '\n' ∉ name.toList :=
        List.forall_mem_map.mpr fun b hb => h.2.1 b.mark (List.mem_map_of_mem hb)
      have hblank : Indents (Record.repeated indent k) " " " " := indents_line (by decide)
      have hhead := hblank.intercalate (indents_names
          (List.forall_mem_cons.mpr ⟨show '\n' ∉ form.keyword.toList by cases form <;> decide,
            List.forall_mem_cons.mpr ⟨h.1, hparams⟩⟩))
      exact (hhead.append (indents_line (by decide))).append (hxy h.2.2)
  | .native tag params => shifts_refuse _
  | .datum value => shifts_refuse _
  | .tuple items => shifts_refuse _

theorem printElse_shifts (hindent : '\n' ∉ indent.toList) : ∀ n : Option Node,
    Shifts k (fun x y => (∀ m ∈ optionMarks n, m.1.OneLine) →
      Indents (Record.repeated indent k) x y)
      (Node.printElse indent n) (Node.printElse indent n)
  | none => by
      rw [Node.printElse]
      exact shifts_pure fun _ => indents_line List.not_mem_nil
  | some n => by
      rw [Node.printElse]
      refine (print_shifts hindent n).bind fun x y hxy => shifts_pure fun h => ?_
      exact (indents_line (by decide)).append (hxy h)

theorem printArguments_shifts (hindent : '\n' ∉ indent.toList) : ∀ ns : List Node,
    Shifts k (fun xs ys => (∀ m ∈ marksOf ns, m.1.OneLine) →
      List.Forall₂ (Indents (Record.repeated indent k)) xs ys)
      (Node.printArguments indent ns) (Node.printArguments indent ns)
  | [] => by
      rw [Node.printArguments]
      exact shifts_pure fun _ => .nil
  | n :: rest => by
      rw [Node.printArguments]
      refine (print_shifts hindent n).bind fun x y hxy => ?_
      refine (printArguments_shifts hindent rest).bind fun xs ys hxs => shifts_pure fun h => ?_
      rw [marksOf, List.forall_mem_append] at h
      exact .cons ((hxy h.1).bracketed _) (hxs h.2)

/-- There are lines unless all statements are empty. -/
theorem printLines_shifts (hindent : '\n' ∉ indent.toList) : ∀ ns : List Node,
    Shifts k (fun xs ys => (xs = [] → ns.all Node.isNull = true) ∧
      ((∀ m ∈ marksOf ns, m.1.OneLine) →
        List.Forall₂ (LineIndents (Record.repeated indent k)) xs ys))
      (Node.printLines indent ns) (Node.printLines indent ns)
  | [] => by
      rw [Node.printLines]
      exact shifts_pure ⟨fun _ => rfl, fun _ => .nil⟩
  | n :: rest => by
      have ih := printLines_shifts hindent rest
      cases hn : n.isNull with
      | true =>
          cases n with
          | null => rw [Node.printLines]; exact ih
          | _ => exact nomatch hn
      | false =>
          rw [Node.printLines_cons hn]
          refine (shifts_margin indent k).bind fun w w' hw => ?_
          refine (print_shifts hindent n).bind fun x y hxy => ?_
          refine ih.bind fun xs ys hxs => shifts_pure ⟨nofun, fun h => ?_⟩
          rw [marksOf, List.forall_mem_append] at h
          obtain ⟨⟨level, rfl⟩, rfl⟩ := hw
          have hline : Indents (Record.repeated indent k) (Record.repeated indent level ++ x)
              (Record.repeated indent level ++ y) :=
            (indents_line (Record.repeated_line hindent level)).append (hxy h.1)
          exact .cons ⟨_, hline, String.append_assoc⟩ (hxs.2 h.2)

end

end

namespace Node

/-! ## One printer for many nodes -/

/-- Print nodes one after the other, each from the level that the one before it left behind. -/
def printEach (indent : String) : List Node → Nat → List (Except PrintFault String) × Nat
  | [], level => ([], level)
  | n :: rest, level =>
    let (result, reached) := print indent n level
    let (results, last) := printEach indent rest reached
    (result :: results, last)

/-- Printing ends at the level where it began, whatever it comes to. -/
theorem print_restores {indent : String} (hindent : '\n' ∉ indent.toList) (n : Node)
    (level : Nat) : (print indent n level).2 = level := by
  rcases print_shifts (k := 0) hindent n level with ⟨why, h, -⟩ | ⟨x, y, h, -, -⟩ <;> rw [h]

/-- So what was printed before makes no difference to what is printed next. -/
theorem printEach_restores {indent : String} (hindent : '\n' ∉ indent.toList) (level : Nat) :
    ∀ ns : List Node,
      printEach indent ns level = (ns.map fun n => (print indent n level).1, level) := by
  intro ns
  induction ns with
  | nil => rfl
  | cons n ns ih =>
      show ((print indent n level).1 :: (printEach indent ns (print indent n level).2).1,
        (printEach indent ns (print indent n level).2).2) = _
      rw [print_restores hindent, ih, List.map_cons]

/-- **INDENTATION** only shifts the layout: at every level printing a tree, whether it comes to a
    text or not, ends at the level where it began, and gives up where it would at the margin and
    for the same reason.  What is printed is what would be printed at the margin, with the
    indentation of the level behind every newline, if no name in the tree has a newline in it.
    So a printer that is used on any number of trees prints each as a new one would. -/
theorem print_level (indent : String) (hindent : '\n' ∉ indent.toList) (level : Nat) :
    (∀ n : Node, (print indent n level).2 = level ∧
      (∀ why, (print indent n level).1 = .error why ↔ (print indent n 0).1 = .error why) ∧
      (n.NamesOneLine → (print indent n level).1 =
        (print indent n 0).1.map (indented (Record.repeated indent level)))) ∧
    ∀ ns : List Node,
      printEach indent ns level = (ns.map fun n => (print indent n level).1, level) := by
  refine ⟨fun n => ⟨print_restores hindent n level, ?_⟩, printEach_restores hindent level⟩
  have hboth := print_shifts (k := level) hindent n 0
  rw [Nat.zero_add] at hboth
  rcases hboth with ⟨why, hmargin, hlevel⟩ | ⟨x, y, hmargin, hlevel, hxy⟩
  · rw [hmargin, hlevel]
    exact ⟨fun _ => Iff.rfl, fun _ => rfl⟩
  · rw [hmargin, hlevel]
    exact ⟨fun _ => ⟨nofun, nofun⟩, fun h => congrArg Except.ok (hxy h)⟩

/-- A block with a name in it, one level deep; and a printer that goes on after a tree without
    a source form, deep in brackets. -/
theorem print_level_block :
    let block := enclosed .block [.binder ⟨"a", none⟩]
    let sourceless := enclosed .block [enclosed .scope [.unit none]]
    '\n' ∉ "  ".toList ∧ block.NamesOneLine ∧
      (print "  " block 1).1 = .ok "\x7b\n    a\n  \x7d" ∧
      printEach "  " [sourceless, block] 0 =
        ([.error (.noSource (.kind "UnitLiteral")), .ok "\x7b\n  a\n\x7d"], 0) := by
  intro block sourceless
  have hindent : '\n' ∉ "  ".toList := by decide
  have hnames : block.NamesOneLine := List.forall_mem_singleton.mpr (by decide : '\n' ∉ ['a'])
  exact ⟨hindent, hnames, ((print_level "  " hindent 1).1 block).2.2 hnames,
    (print_level "  " hindent 0).2 [sourceless, block]⟩

end Node

end BasicSyntax
