import BasicSyntax.Node.Source
import BasicSyntax.Proofs.Grammar.Marks
import BasicSyntax.Proofs.Text.Digits
import BasicSyntax.Render

/-! # What printed text is drawn from

    Printing writes the names and texts of a tree and, around them, a layout of its own: words,
    digits, brackets, operators, quotes, blanks and newlines, all among the first 128 characters
    and none of them a carriage return.  So whatever holds of those, and of every character in a
    name or a text of the tree, holds of all characters that are printed (`print_drawn`).  It is
    said of every tree: one that has no source form prints nothing.

    Names and texts that are read come from the source in turn, but for the newlines that are
    written another way there (`read_drawn`). -/

namespace BasicSyntax

open Text

/-- A character that printing may write on its own. -/
def isLayout (c : Char) : Bool := decide (c.toNat < 128) && c != '\r'

/-- A class that the layout is in. -/
def Laid (P : Char → Prop) : Prop := ∀ c, isLayout c = true → P c

/-- All characters of a text are of a class. -/
def Drawn (P : Char → Prop) (text : String) : Prop := ∀ c ∈ text.toList, P c

/-- What a mark contributes to a printed text is of a class, its layout apart. -/
def Mark.Drawn (P : Char → Prop) : Mark → Prop
  | .name text => BasicSyntax.Drawn P text
  | .string literal => BasicSyntax.Drawn P literal
  | _ => True

namespace Printing

/-- Whatever a step of printing results in has a property. -/
def Emits {α : Type} (Q : α → Prop) (step : Printing α) : Prop :=
  ∀ level a, (step level).1 = .ok a → Q a

variable {α β : Type} {Q : α → Prop} {R : β → Prop}

theorem emits_pure {a : α} (h : Q a) : Emits Q (pure a) := by
  rintro level _ ⟨⟩
  exact h

theorem emits_refuse (why : PrintFault) : Emits Q (refuse why) := by
  rintro level _ ⟨⟩

theorem emits_number {Q : String → Prop} {value : Int} (h : Q (toString value)) :
    Emits Q (number value) := by
  rw [number]
  split
  · exact emits_pure h
  · exact emits_refuse .longNumber

theorem Emits.bind {step : Printing α} {next : α → Printing β} (h : Emits Q step)
    (hnext : ∀ a, Q a → Emits R (next a)) : Emits R (step >>= next) := by
  intro level b hb
  rw [bind_run] at hb
  cases hs : (step level).1 with
  | error why =>
      rw [hs] at hb
      exact nomatch hb
  | ok a =>
      rw [hs] at hb
      exact hnext a (h level a hs) _ b hb

theorem Emits.deeper {step : Printing α} (h : Emits Q step) : Emits Q (deeper step) :=
  fun level a ha => h (level + 1) a ha

end Printing

open Printing

section

variable {P : Char → Prop}

/-! ## Texts -/

theorem Drawn.append {x y : String} (hx : Drawn P x) (hy : Drawn P y) : Drawn P (x ++ y) := by
  intro c hc
  rw [String.toList_append] at hc
  exact (List.mem_append.mp hc).elim (hx c) (hy c)

theorem Drawn.intercalate {sep : String} (hsep : Drawn P sep) {texts : List String}
    (h : ∀ text ∈ texts, Drawn P text) : Drawn P (sep.intercalate texts) := by
  induction texts with
  | nil =>
      rw [String.intercalate_nil]
      exact fun c hc => absurd hc List.not_mem_nil
  | cons text texts ih =>
      obtain ⟨htext, hmore⟩ := List.forall_mem_cons.mp h
      cases texts with
      | nil =>
          rw [String.intercalate_singleton]
          exact htext
      | cons text' texts =>
          rw [String.intercalate_cons_cons]
          exact (htext.append hsep).append (ih hmore)

theorem drawn_layout (hP : Laid P) {text : String} (h : text.toList.all isLayout = true) :
    Drawn P text :=
  fun c hc => hP c (List.all_eq_true.mp h c hc)

theorem drawn_bracketed (hP : Laid P) (wanted : Bool) {text : String} (h : Drawn P text) :
    Drawn P (bracketed wanted text) := by
  cases wanted with
  | true => exact ((drawn_layout hP rfl).append h).append (drawn_layout hP rfl)
  | false => exact h

theorem drawn_number (hP : Laid P) (value : Int) : Drawn P (toString value) := by
  have hdigits : ∀ n : Nat, Drawn P n.repr := by
    intro n c hc
    rw [Nat.toList_repr] at hc
    have hdigit := (writes_toDigits n).2 c hc
    refine hP c (Bool.and_eq_true_iff.mpr ⟨decide_eq_true (digit_ascii hdigit), ?_⟩)
    refine bne_iff_ne.mpr ?_
    rintro rfl
    exact absurd hdigit (by decide)
  cases value with
  | ofNat n => exact hdigits n
  | negSucc n =>
      have hminus : Drawn P "-" := drawn_layout hP rfl
      exact hminus.append (hdigits (n + 1))

theorem drawn_encoded (hP : Laid P) : ∀ {literal : List Char}, (∀ c ∈ literal, P c) →
    ∀ c ∈ encodeLiteral literal, P c := by
  intro literal
  induction literal with
  | nil => exact fun _ => nofun
  | cons d literal ih =>
      intro h
      obtain ⟨hd, hmore⟩ := List.forall_mem_cons.mp h
      rw [encodeLiteral]
      split
      · exact List.forall_mem_cons.mpr
          ⟨hP _ rfl, List.forall_mem_cons.mpr ⟨hP _ rfl, ih hmore⟩⟩
      · exact List.forall_mem_cons.mpr ⟨hd, ih hmore⟩

theorem drawn_string (hP : Laid P) {literal : String} (h : Drawn P literal) :
    Drawn P (writeLiteral literal) := by
  intro c hc
  rw [writeLiteral, String.toList_ofList] at hc
  rcases List.mem_cons.mp hc with rfl | hc
  · exact hP _ rfl
  · rcases List.mem_append.mp hc with hc | hc
    · exact drawn_encoded hP h c hc
    · rw [List.mem_singleton.mp hc]
      exact hP _ rfl

theorem drawn_operator (hP : Laid P) (op : Operator) : Drawn P op.symbol.text := by
  refine drawn_layout hP ?_
  cases op.symbol <;> rfl

/-- The names of parameters are marks of theirs. -/
theorem Node.paramNames_marks {params : List (Binder × Option Node)} {names : List String}
    (h : paramNames params = .ok names) :
    ∀ name ∈ names, ∃ pos, (Mark.name name, pos) ∈ paramMarks params := by
  induction params generalizing names with
  | nil =>
      obtain rfl := Except.ok.inj h
      exact nofun
  | cons param params ih =>
      obtain ⟨b, value⟩ := param
      cases value with
      | some n => exact nomatch h
      | none =>
          cases hrest : paramNames params with
          | error why =>
              rw [paramNames, hrest] at h
              exact nomatch h
          | ok rest =>
              rw [paramNames, hrest] at h
              obtain rfl := Except.ok.inj h
              refine List.forall_mem_cons.mpr ⟨⟨b.pos, List.mem_cons_self⟩, fun name hname => ?_⟩
              obtain ⟨pos, hmem⟩ := ih hrest name hname
              exact ⟨pos, List.mem_cons_of_mem _ hmem⟩

theorem drawn_names {params : List (Binder × Option Node)}
    (h : ∀ m ∈ paramMarks params, m.1.Drawn P) {names : List String}
    (hnames : Node.paramNames params = .ok names) : ∀ name ∈ names, Drawn P name := by
  intro name hname
  obtain ⟨pos, hmem⟩ := Node.paramNames_marks hnames name hname
  exact h _ hmem

/-! ## Trees -/

variable {indent : String}

theorem emits_margin (hindent : Drawn P indent) : Emits (Drawn P) (margin indent) := by
  rintro level _ ⟨⟩
  induction level with
  | zero => exact nofun
  | succ level ih => exact ih.append hindent

mutual

/-- **PRINTED CHARACTERS** are of the layout or of a name or a text in the tree. -/
theorem print_drawn (hP : Laid P) (hindent : Drawn P indent) :
    ∀ n : Node, (∀ m ∈ n.marks, m.1.Drawn P) →
      Emits (Drawn P) (Node.print indent n)
  | .binder b, h => by
      rw [Node.marks, List.forall_mem_singleton] at h
      rw [Node.print]
      exact emits_pure h
  | .unit pos, _ => emits_refuse _
  | .number value pos, _ => by
      rw [Node.print]
      exact emits_number (drawn_number hP value)
  | .string literal pos, h => by
      rw [Node.marks, List.forall_mem_singleton] at h
      rw [Node.print]
      exact emits_pure (drawn_string hP h)
  | .underline pos, _ => by
      rw [Node.print]
      exact emits_pure (drawn_layout hP rfl)
  | .function params body pos, h => by
      rw [Node.marks, List.forall_mem_cons, List.forall_mem_append] at h
      rw [Node.print]
      cases hnames : Node.paramNames params with
      | error why => exact emits_refuse (.noSource why)
      | ok names =>
          refine (print_drawn hP hindent body h.2.2).bind fun text ht => emits_pure ?_
          have hspace : Drawn P " " := drawn_layout hP rfl
          exact (((drawn_layout hP rfl).append
            (hspace.intercalate (drawn_names h.2.1 hnames))).append
              (drawn_layout hP rfl)).append ht
  | .template params body pos, _ => emits_refuse _
  | .operator op, _ => by
      rw [Node.print]
      exact emits_pure (drawn_operator hP op)
  | .negative n, h => by
      rw [Node.marks] at h
      rw [Node.print]
      exact (print_drawn hP hindent n h).bind fun text ht =>
        emits_pure ((drawn_layout hP rfl).append (drawn_bracketed hP _ ht))
  | .binary left op right, h => by
      rw [Node.marks, List.forall_mem_append, List.forall_mem_cons] at h
      rw [Node.print]
      refine (print_drawn hP hindent left h.1).bind fun x hx => ?_
      refine (print_drawn hP hindent right h.2.2).bind fun y hy => emits_pure ?_
      have hspace : Drawn P " " := drawn_layout hP rfl
      exact ((((drawn_bracketed hP _ hx).append hspace).append (drawn_operator hP op)).append
        hspace).append (drawn_bracketed hP _ hy)
  | .application child arguments, h => by
      cases child with
      | binder b =>
          rw [Node.marks, List.forall_mem_append, Node.marks, List.forall_mem_singleton] at h
          rw [Node.print]
          refine (printArguments_drawn hP hindent arguments h.2).bind fun texts hts => emits_pure ?_
          exact Drawn.intercalate (drawn_layout hP rfl) (List.forall_mem_cons.mpr ⟨h.1, hts⟩)
      | _ => exact emits_refuse _
  | .enclosed form stmts, h => by
      have hopening : Drawn P form.opening := drawn_layout hP (by cases form <;> rfl)
      have hclosing : Drawn P form.closing := drawn_layout hP (by cases form <;> rfl)
      have hnewline : Drawn P "\n" := drawn_layout hP rfl
      rw [Node.marks] at h
      by_cases hall : stmts.all Node.isNull = true
      · rw [Node.print, if_pos hall]
        exact emits_pure (hopening.append hclosing)
      · rw [Node.print_enclosed hall]
        refine (printLines_drawn hP hindent stmts h).deeper.bind fun lines hlines => ?_
        refine (emits_margin hindent).bind fun space hspace => emits_pure ?_
        exact ((((hopening.append hnewline).append (hnewline.intercalate hlines)).append
          hnewline).append hspace).append hclosing
  | .null, _ => by
      rw [Node.print]
      exact emits_pure nofun
  | .conditional condition thenBlock elseBlock, h => by
      rw [Node.marks, List.forall_mem_append, List.forall_mem_append] at h
      rw [Node.print]
      refine (print_drawn hP hindent condition h.1).bind fun x hx => ?_
      refine (print_drawn hP hindent thenBlock h.2.1).bind fun y hy => ?_
      refine (printElse_drawn hP hindent elseBlock h.2.2).bind fun z hz => emits_pure ?_
      exact ((((drawn_layout hP rfl).append (drawn_bracketed hP _ hx)).append
        (drawn_layout hP rfl)).append hy).append hz
  | .loop condition body, h => by
      rw [Node.marks, List.forall_mem_append] at h
      rw [Node.print]
      refine (print_drawn hP hindent condition h.1).bind fun x hx => ?_
      refine (print_drawn hP hindent body h.2).bind fun y hy => emits_pure ?_
      exact (((drawn_layout hP rfl).append (drawn_bracketed hP _ hx)).append
        (drawn_layout hP rfl)).append hy
  | .binding form named params codes, h => by
      rw [Node.marks, List.forall_mem_cons, List.forall_mem_append] at h
      have hkeyword : Drawn P form.keyword := drawn_layout hP (by cases form <;> rfl)
      have hparams : ∀ text ∈ (params.getD []).map Binder.text, Drawn P text :=
        List.forall_mem_map.mpr fun b hb => h.2.1 b.mark (List.mem_map_of_mem hb)
      rw [Node.print]
      refine (print_drawn hP hindent codes h.2.2).bind fun x hx => emits_pure ?_
      refine ((Drawn.intercalate (drawn_layout hP rfl) ?_).append (drawn_layout hP rfl)).append hx
      exact List.forall_mem_cons.mpr ⟨hkeyword, List.forall_mem_cons.mpr ⟨h.1, hparams⟩⟩
  | .native tag params, _ => emits_refuse _
  | .datum value, _ => emits_refuse _
  | .tuple items, _ => emits_refuse _

theorem printElse_drawn (hP : Laid P) (hindent : Drawn P indent) :
    ∀ n : Option Node, (∀ m ∈ optionMarks n, m.1.Drawn P) →
      Emits (Drawn P) (Node.printElse indent n)
  | none, _ => by
      rw [Node.printElse]
      exact emits_pure nofun
  | some n, h => by
      rw [Node.printElse]
      exact (print_drawn hP hindent n h).bind fun text ht =>
        emits_pure ((drawn_layout hP rfl).append ht)

theorem printArguments_drawn (hP : Laid P) (hindent : Drawn P indent) :
    ∀ ns : List Node, (∀ m ∈ marksOf ns, m.1.Drawn P) →
      Emits (fun texts => ∀ text ∈ texts, Drawn P text) (Node.printArguments indent ns)
  | [], _ => by
      rw [Node.printArguments]
      exact emits_pure nofun
  | n :: rest, h => by
      rw [marksOf, List.forall_mem_append] at h
      rw [Node.printArguments]
      refine (print_drawn hP hindent n h.1).bind fun text ht => ?_
      refine (printArguments_drawn hP hindent rest h.2).bind fun texts hts => emits_pure ?_
      exact List.forall_mem_cons.mpr ⟨drawn_bracketed hP _ ht, hts⟩

theorem printLines_drawn (hP : Laid P) (hindent : Drawn P indent) :
    ∀ ns : List Node, (∀ m ∈ marksOf ns, m.1.Drawn P) →
      Emits (fun texts => ∀ text ∈ texts, Drawn P text) (Node.printLines indent ns)
  | [], _ => by
      rw [Node.printLines]
      exact emits_pure nofun
  | n :: rest, h => by
      rw [marksOf, List.forall_mem_append] at h
      cases hn : n.isNull with
      | true =>
          cases n with
          | null =>
              rw [Node.printLines]
              exact printLines_drawn hP hindent rest h.2
          | _ => exact nomatch hn
      | false =>
          rw [Node.printLines_cons hn]
          refine (emits_margin hindent).bind fun space hspace => ?_
          refine (print_drawn hP hindent n h.1).bind fun text ht => ?_
          refine (printLines_drawn hP hindent rest h.2).bind fun texts hts => emits_pure ?_
          exact List.forall_mem_cons.mpr ⟨hspace.append ht, hts⟩

end

/-- So are the characters of a printed program. -/
theorem printProgram_drawn (hP : Laid P) (hindent : Drawn P indent) :
    ∀ ns : List Node, (∀ m ∈ marksOf ns, m.1.Drawn P) →
      Emits (Drawn P) (Node.printProgram indent ns) := by
  intro ns
  induction ns with
  | nil => exact fun _ => emits_pure nofun
  | cons n ns ih =>
      intro h
      rw [marksOf, List.forall_mem_append] at h
      rw [Node.printProgram]
      refine (print_drawn hP hindent n h.1).bind fun text ht => ?_
      refine (ih h.2).bind fun rest hrest => emits_pure ?_
      exact (ht.append (drawn_layout hP rfl)).append hrest

/-- And so are those of a program as it is shown. -/
theorem render_drawn (hP : Laid P) {stmts : List Node} (h : ∀ m ∈ marksOf stmts, m.1.Drawn P)
    {text : String} (hr : render .source stmts = .ok text) : Drawn P text := by
  have hindent : Drawn P Node.sourceIndent := drawn_layout hP rfl
  rw [render] at hr
  cases hsource : Node.programSource stmts with
  | error why =>
      rw [hsource] at hr
      exact nomatch hr
  | ok whole =>
      rw [hsource] at hr
      obtain rfl := Except.ok.inj hr
      intro c hc
      rw [String.toList_ofList] at hc
      exact printProgram_drawn hP hindent stmts h 0 whole hsource c
        ((List.rdropWhile_prefix _ _).subset hc)

/-! ## Programs that are read -/

theorem drawn_decoded (hnewline : P '\n') {body : List Char} (h : ∀ c ∈ body, P c) :
    ∀ c ∈ decodeLiteral body, P c := by
  induction body using decodeLiteral.induct with
  | case1 => exact List.forall_mem_nil _
  | case2 rest ih =>
      rw [decodeLiteral]
      exact List.forall_mem_cons.mpr
        ⟨hnewline, ih fun c hc => h c (List.mem_cons_of_mem _ (List.mem_cons_of_mem _ hc))⟩
  | case3 c rest hno ih =>
      obtain ⟨hc, hmore⟩ := List.forall_mem_cons.mp h
      rw [decodeLiteral]
      · exact List.forall_mem_cons.mpr ⟨hc, ih hmore⟩
      · exact hno

/-- A mark is drawn from what it is written as, and from newlines. -/
theorem Mark.WrittenAs.drawn (hnewline : P '\n') {m : Mark} {w : List Char} (h : m.WrittenAs w)
    (hw : ∀ c ∈ w, P c) : m.Drawn P := by
  cases m with
  | name text =>
      intro c hc
      rw [← h.2] at hc
      exact hw c hc
  | string literal =>
      intro c hc
      rw [h.2, readLiteral, String.toList_ofList, String.toList_ofList] at hc
      refine drawn_decoded hnewline (fun d hd => hw d ?_) c hc
      exact List.mem_of_mem_drop (List.dropLast_subset _ hd)
  | _ => exact trivial

/-- **READ MARKS** are drawn from the source, and from newlines. -/
theorem Program.read_drawn (hnewline : P '\n') {source : String} {stmts : List Node}
    (h : Program.read source = .ok stmts) (hs : Drawn P source) :
    ∀ m ∈ marksOf stmts, m.1.Drawn P := by
  have hcomplete : ∀ c ∈ Program.complete source.toList, P c := by
    rcases Program.complete_cases source.toList with ⟨heq, -⟩ | ⟨heq, -⟩
    · rw [heq]
      exact hs
    · rw [heq]
      exact List.forall_mem_append.mpr ⟨hs, List.forall_mem_singleton.mpr hnewline⟩
  intro m hm
  obtain ⟨t, ht, hmark⟩ := List.mem_filterMap.mp ((Program.read_within h).subset hm)
  obtain ⟨above, below, hstands, -, -⟩ := Token.placed t ht
  refine (Token.mark_written hstands.writes hmark).1.drawn hnewline fun c hc => hcomplete c ?_
  rw [hstands.split]
  exact List.mem_append_right _ (List.mem_append_left _ hc)

end

end BasicSyntax
