import BasicSyntax.Proofs.CommandLine.Script
import BasicSyntax.Proofs.Node.Unplaced
import BasicSyntax.Proofs.RoundTrip
import BasicSyntax.Proofs.Source.Drawn
import BasicSyntax.Proofs.Text.Lines
import BasicSyntax.Proofs.Text.Utf8

/-! # Formatting — the source form of a program as it is shown

    A program is shown without the newlines at the end of its source form.  These are the newline
    of its last line and those of the empty lines behind it, since nothing else that is printed
    ends in a newline.  So what is shown reads as the program without the empty lines at its end
    (`formatted`), and programs that agree are printed alike: what is shown is shown as itself.

    At a console a newline is written behind it.  The file that this makes is read as it was
    written: there is no carriage return in it (`shown_again`), and decoding undoes encoding. -/

namespace BasicSyntax

open Grammar

/-! ## The end of a source form -/

namespace Node

open Printing

variable {indent : String}

theorem printProgram_append (indent : String) (ns ms : List Node) :
    printProgram indent (ns ++ ms) = do
      let x ← printProgram indent ns
      let y ← printProgram indent ms
      return x ++ y := by
  induction ns with
  | nil => simp only [List.nil_append, printProgram, pure_bind, String.empty_append, bind_pure]
  | cons n ns ih =>
      simp only [List.cons_append, printProgram, ih, bind_assoc, pure_bind, String.append_assoc]

theorem printed_append {ns ms : List Node} {level : Nat} {x y : String}
    (hx : Yields (printProgram indent ns) level x) (hy : Yields (printProgram indent ms) level y) :
    Yields (printProgram indent (ns ++ ms)) level (x ++ y) := by
  rw [printProgram_append]
  exact hx.bind (hy.bind (yields_pure _ _))

theorem printed_single {n : Node} {level : Nat} {text : String}
    (h : Yields (print indent n) level text) :
    Yields (printProgram indent [n]) level (text ++ "\n") := by
  simp only [printProgram, pure_bind, String.append_empty]
  exact h.bind (yields_pure _ _)

/-- Empty lines are printed as newlines. -/
theorem printed_nulls (indent : String) : ∀ {ns : List Node}, (∀ n ∈ ns, n.isNull = true) →
    ∀ level, ∃ gap, Yields (printProgram indent ns) level gap ∧ ∀ c ∈ gap.toList, c = '\n' := by
  intro ns
  induction ns with
  | nil => exact fun _ level => ⟨"", rfl, List.forall_mem_nil _⟩
  | cons n ns ih =>
      intro h level
      obtain ⟨hn, hmore⟩ := List.forall_mem_cons.mp h
      obtain ⟨gap, hgap, hnewlines⟩ := ih hmore level
      cases n with
      | null =>
          have hnull : Yields (printProgram indent [.null]) level ("" ++ "\n") :=
            printed_single (yields_pure "" level)
          refine ⟨"" ++ "\n" ++ gap, printed_append hnull hgap, ?_⟩
          rw [String.toList_append]
          exact List.forall_mem_append.mpr ⟨List.forall_mem_singleton.mpr rfl, hnewlines⟩
      | _ => exact Bool.noConfusion hn

/-- A program without the empty lines at its end. -/
abbrev trimmed (stmts : List Node) : List Node := stmts.rdropWhile isNull

theorem mem_trimmed {stmts : List Node} {n : Node} (h : n ∈ trimmed stmts) : n ∈ stmts :=
  (List.rdropWhile_prefix _ _).subset h

/-- **THE END** of the source form of a program: the last line that is not empty, with its
    newline, and newlines.  Up to them it is the source form of the program without the empty
    lines at its end, and reads as that. -/
theorem printed_trimmed (hindent : ∀ c ∈ indent.toList, Text.isFiller c = true)
    {stmts : List Node} (hall : ∀ n ∈ stmts, n.IsEntry) (hne : trimmed stmts ≠ []) (level : Nat) :
    ∃ text gap, Closes text ∧ (∀ c ∈ gap.toList, c = '\n') ∧
      Yields (printProgram indent stmts) level (text ++ "\n" ++ gap) ∧
      Yields (printProgram indent (trimmed stmts)) level (text ++ "\n") ∧
      Reads Free (text ++ "\n") (AsProgram (trimmed stmts)) := by
  have hentries : ∀ n ∈ trimmed stmts, n.IsEntry := fun n hn => hall n (mem_trimmed hn)
  -- the last line that is left is a statement
  have hlast : ((trimmed stmts).getLast hne).IsStmt := by
    refine (hentries _ (List.getLast_mem hne)).resolve_left fun hnull => ?_
    have hno := List.rdropWhile_last_not isNull stmts hne
    rw [hnull] at hno
    exact hno rfl
  obtain ⟨last, hp, -, hedged⟩ := hlast.printed hindent level
  obtain ⟨front, hf, -, -⟩ := printed_program hindent
    (fun n hn => hentries n (List.dropLast_subset _ hn)) level
  obtain ⟨whole, hw, hreads, -⟩ := printed_program hindent hentries level
  obtain ⟨gap, hg, hnewlines⟩ := printed_nulls indent
    (fun n hn => List.mem_rtakeWhile_imp hn) level
  have hline : Yields (printProgram indent (trimmed stmts)) level (front ++ last ++ "\n") := by
    rw [← List.dropLast_append_getLast hne, String.append_assoc]
    exact printed_append hf (printed_single hp)
  have hwhole : whole = front ++ last ++ "\n" :=
    Except.ok.inj (congrArg Prod.fst (hw.symm.trans hline))
  refine ⟨front ++ last, gap, hedged.closes.append front, hnewlines, ?_, hline, hwhole ▸ hreads⟩
  rw [← List.rdropWhile_append_rtakeWhile (p := isNull) (l := stmts)]
  exact printed_append hline hg

/-- Only nothing agrees with nothing. -/
theorem allAgree_nil {ns : List Node} (h : Node.allAgree [] ns = true) : ns = [] := by
  cases ns with
  | nil => rfl
  | cons n ns => exact nomatch h

end Node

/-! ## What is shown -/

open Printing

theorem trimEnd_newlines {text gap : String} (ht : Closes text) (hg : ∀ c ∈ gap.toList, c = '\n') :
    String.ofList (Text.trimEnd (· == '\n') (text ++ gap).toList) = text := by
  obtain ⟨c, hc, hsep⟩ := ht
  have hc' : c ≠ '\n' := by
    rintro rfl
    exact nomatch hsep
  have hgap : ∀ d ∈ gap.toList.reverse, (d == '\n') = true := by
    intro d hd
    rw [hg d (List.mem_reverse.mp hd)]
    rfl
  have hself : text.toList.rdropWhile (· == '\n') = text.toList := by
    refine List.rdropWhile_eq_self_iff.mpr fun hne heq => hc' ?_
    rw [List.getLast?_eq_some_getLast hne] at hc
    rw [← Option.some.inj hc, beq_iff_eq.mp heq]
  rw [String.toList_append, Text.trimEnd, List.reverse_append, List.dropWhile_append_of_pos hgap]
  exact (congrArg String.ofList hself).trans String.ofList_toList

/-- A program is shown without the newlines at the end of its source form. -/
theorem render_printed {stmts : List Node} {text gap : String}
    (h : Yields (Node.printProgram Node.sourceIndent stmts) 0 (text ++ gap)) (ht : Closes text)
    (hg : ∀ c ∈ gap.toList, c = '\n') : render .source stmts = .ok text := by
  have hsource : Node.programSource stmts = .ok (text ++ gap) := congrArg Prod.fst h
  rw [render, hsource]
  exact congrArg Except.ok (trimEnd_newlines ht hg)

/-- Empty lines alone are shown as nothing. -/
theorem render_nulls {stmts : List Node} (h : Node.trimmed stmts = []) :
    render .source stmts = .ok "" := by
  obtain ⟨gap, hp, hg⟩ := Node.printed_nulls Node.sourceIndent
    (List.rdropWhile_eq_nil_iff.mp h) 0
  have hsource : Node.programSource stmts = .ok gap := congrArg Prod.fst hp
  have hempty : gap.toList.rdropWhile (· == '\n') = [] :=
    List.rdropWhile_eq_nil_iff.mpr fun c hc => beq_iff_eq.mpr (hg c hc)
  rw [render, hsource]
  exact congrArg (fun text => Except.ok (String.ofList text)) hempty

/-- Well-formed entries are shown in every way. -/
theorem render_entries (mode : Mode) {stmts : List Node} (h : ∀ n ∈ stmts, n.IsEntry) :
    ∃ text, render mode stmts = .ok text := by
  cases mode with
  | source =>
      obtain ⟨text, hp, -⟩ := Node.printed_program Node.sourceIndent_filler h 0
      have hsource : Node.programSource stmts = .ok text := congrArg Prod.fst hp
      rw [render, hsource]
      exact ⟨_, rfl⟩
  | outline => exact ⟨_, rfl⟩
  | listing => exact ⟨_, rfl⟩

namespace Program

/-- Sources that are completed to one text are read alike. -/
theorem read_congr {source source' : String}
    (h : complete source.toList = complete source'.toList) : read source = read source' := by
  rw [read, read, h]

/-- What is read has a source form all the way down. -/
theorem read_printable {source : String} {stmts : List Node} (h : read source = .ok stmts) :
    ∀ n ∈ stmts, n.IsPrintable := by
  intro n hn
  exact (read_entries h n hn).printable

/-- **FORMATTING**: a program that is read, and that is more than empty lines, is shown as a text
    that reads as the program without the empty lines at its end, and what it reads as is shown
    as the same text. -/
theorem formatted {source : String} {stmts : List Node} (h : read source = .ok stmts)
    (hne : Node.trimmed stmts ≠ []) :
    ∃ text, Closes text ∧ render .source stmts = .ok text ∧
      ∃ out, read text = .ok out ∧ Node.allAgree out (Node.trimmed stmts) = true ∧
        render .source out = .ok text := by
  obtain ⟨text, gap, hcloses, hg, hp, htrimmed, hreads⟩ :=
    Node.printed_trimmed Node.sourceIndent_filler (read_entries h) hne 0
  obtain ⟨out, hread, hagree⟩ := read_piece hreads (complete_open hcloses)
  have hgap : ∀ c ∈ ("\n" ++ gap).toList, c = '\n' := by
    rw [String.toList_append]
    exact List.forall_mem_append.mpr ⟨List.forall_mem_singleton.mpr rfl, hg⟩
  refine ⟨text, hcloses, ?_, out, hread, hagree, ?_⟩
  · rw [String.append_assoc] at hp
    exact render_printed hp hcloses hgap
  · -- what is read agrees with the program that was printed, and so is printed alike
    have hprint := Node.printProgram_agrees Node.sourceIndent (read_printable hread)
      (fun n hn => read_printable h n (Node.mem_trimmed hn)) hagree
    rw [← hprint] at htrimmed
    exact render_printed htrimmed hcloses (List.forall_mem_singleton.mpr rfl)

/-- A newline behind a statement changes nothing. -/
theorem read_ended {text : String} (h : Closes text) : read (text ++ "\n") = read text := by
  refine read_congr ?_
  rw [complete_open h, String.toList_append]
  exact complete_separated (newline_last text.toList)

/-- No carriage return is shown of a program that is read from a source without one. -/
theorem shown_clean {source text : String} {stmts : List Node} (h : read source = .ok stmts)
    (hs : '\r' ∉ source.toList) (hrender : render .source stmts = .ok text) :
    '\r' ∉ (text ++ "\n").toList := by
  have hlaid : Laid (· ≠ '\r') := by
    rintro c hc rfl
    exact nomatch hc
  have hsource : Drawn (· ≠ '\r') source := fun c hc heq => hs (heq ▸ hc)
  have htext : Drawn (· ≠ '\r') text :=
    render_drawn hlaid (read_drawn (by decide) h hsource) hrender
  exact fun hmem => htext.append (drawn_layout hlaid rfl) _ hmem rfl

end Program

namespace CommandLine

theorem shownText_ok {mode : Mode} {stmts : List Node} {text : String} (hne : stmts ≠ [])
    (h : render mode stmts = .ok text) : shownText mode stmts = .ok (text ++ "\n") := by
  rw [shownText, if_neg (by rwa [List.isEmpty_iff]), h]
  rfl

/-- **SHOWN AGAIN**: the output that a program is shown in is read, and is shown as itself. -/
theorem shown_again {source out : String} {stmts : List Node} (h : Program.read source = .ok stmts)
    (hs : '\r' ∉ source.toList) (hshown : shownText .source stmts = .ok out) :
    '\r' ∉ out.toList ∧
      ∃ again, Program.read out = .ok again ∧ shownText .source again = .ok out := by
  by_cases hnil : stmts = []
  · rw [hnil] at hshown
    obtain rfl := Except.ok.inj hshown
    exact ⟨nofun, [], rfl, rfl⟩
  by_cases hne : Node.trimmed stmts = []
  · obtain rfl := Except.ok.inj ((shownText_ok hnil (render_nulls hne)).symm.trans hshown)
    exact ⟨by decide, [.null], rfl, rfl⟩
  · obtain ⟨text, hcloses, hrender, again, hread, hagree, hrender'⟩ := Program.formatted h hne
    obtain rfl := Except.ok.inj ((shownText_ok hnil hrender).symm.trans hshown)
    have hagain : again ≠ [] := by
      rintro rfl
      exact hne (Node.allAgree_nil hagree)
    exact ⟨Program.shown_clean h hs hrender, again, (Program.read_ended hcloses).trans hread,
      shownText_ok hagain hrender'⟩

/-- The output of a script that is shown in source form, kept in a file, is shown as itself. -/
theorem Shows.again {limit : Option String} {path path' out : String}
    {opened : Except OpenFault (List UInt8)} (h : Shows .source limit path opened out)
    (hpath : '\x00' ∉ path'.toList) :
    Shows .source limit path' (.ok out.toUTF8.data.toList) out := by
  cases h with
  | @script _ text _ _ _ _ _ hlimit hread hshown =>
      have hsource : '\r' ∉ (String.ofList (Text.unifyNewlines text)).toList := by
        rw [String.toList_ofList]
        exact Text.unifyNewlines_clean text
      obtain ⟨hclean, again, hread', hshown'⟩ := shown_again hread hsource hshown
      have hdecode : Text.decodeUtf8 out.toUTF8.data.toList = .ok out.toList := by
        rw [Text.toUTF8_encode, Text.decodeUtf8_encode]
      refine .script hpath hdecode hlimit ?_ hshown'
      rw [Text.unifyNewlines_same hclean, String.ofList_toList]
      exact hread'

/-- **FORMATTING IS A FIXED POINT**: every program that is read is shown in source form, as a text
    that reads as the program without the empty lines at its end, and that is shown again as it
    is.  And where a run that shows a script in source form returns 0, so does a run on a file
    that holds its output, with the same output. -/
theorem format_fixed :
    (∀ source stmts, Program.read source = .ok stmts →
      ∃ text, render .source stmts = .ok text ∧
        ∃ out, Program.read text = .ok out ∧
          Node.allAgree out (stmts.rdropWhile Node.isNull) = true ∧
            render .source out = .ok text) ∧
    ∀ (arguments arguments' : List String) (options : Options) (script script' : String)
      (surroundings : Surroundings) (working working' : String) (tree tree' : FileTree)
      (input input' : String),
      readArguments arguments = .ok (.run options) → options.showAs = .source →
      options.script = some script → script ≠ "" →
      readArguments arguments' = .ok (.run ⟨some script', options.mode, options.verbose⟩) →
      script' ≠ "" → '\x00' ∉ (wholePath working' script').toList →
      (run arguments surroundings working tree input).ending = .returned 0 →
      tree'.open? (wholePath working' script') =
        .ok (run arguments surroundings working tree input).output.toUTF8.data.toList →
      (run arguments' surroundings working' tree' input').ending = .returned 0 ∧
        (run arguments' surroundings working' tree' input').output =
          (run arguments surroundings working tree input).output := by
  constructor
  · intro source stmts h
    by_cases hne : Node.trimmed stmts = []
    · have hagree : Node.allAgree [] (Node.trimmed stmts) = true := by
        rw [hne]
        rfl
      exact ⟨"", render_nulls hne, [], rfl, hagree, rfl⟩
    · obtain ⟨text, -, hrender, out, hread, hagree, hrender'⟩ := Program.formatted h hne
      exact ⟨text, hrender, out, hread, hagree, hrender'⟩
  · intro arguments arguments' options script script' surroundings working working' tree tree'
      input input' hargs hmode hscript hne hargs' hne' hpath hreturned hopen
    obtain ⟨hlevel, hshows⟩ := (run_returns surroundings working tree input _ hargs hscript hne).mp
      ⟨hreturned, rfl⟩
    refine (run_returns surroundings working' tree' input' _ hargs' rfl hne').mpr ⟨hlevel, ?_⟩
    have hmode' : Options.showAs ⟨some script', options.mode, options.verbose⟩ = .source := hmode
    rw [hmode] at hshows
    rw [hopen, hmode']
    exact hshows.again hpath

/-- A folder that holds a script and nothing else. -/
def oneScript (path : String) (bytes : List UInt8) : FileTree :=
  [FileTree.entryAt path (.file bytes)]

/-- A block behind an empty line and before others, in lines that end in two ways. -/
def blockSource : String := "\n\x7b a;;-1 \x7d\x0d\n\n"

/-- The block is laid out, and is so once and for all. -/
theorem format_fixed_block :
    (∃ stmts, Program.read blockSource = .ok stmts ∧ ∃ text, render .source stmts = .ok text ∧
      ∃ out, Program.read text = .ok out ∧
        Node.allAgree out (stmts.rdropWhile Node.isNull) = true ∧ render .source out = .ok text) ∧
    ∃ first second : Outcome,
      first = run ["--format", "a.bas"] ⟨none, none⟩ "/"
        (oneScript "/a.bas" blockSource.toUTF8.data.toList) "" ∧
      second = run ["--format", "b.bas"] ⟨none, none⟩ "/"
        (oneScript "/b.bas" first.output.toUTF8.data.toList) "" ∧
      first.output = "\n\x7b\n    a\n    -1\n\x7d\n" ∧
      second.ending = .returned 0 ∧ second.output = first.output := by
  constructor
  · have hok : (Program.read blockSource).toOption.isSome = true := by decide +kernel
    cases hread : Program.read blockSource with
    | error e =>
        rw [hread] at hok
        exact nomatch hok
    | ok stmts => exact ⟨stmts, rfl, format_fixed.1 blockSource stmts hread⟩
  · have hopen : ∀ bytes, (oneScript "/b.bas" bytes).open? (wholePath "/" "b.bas") = .ok bytes :=
      fun _ => rfl
    refine ⟨_, _, rfl, rfl, by decide +kernel, ?_⟩
    exact format_fixed.2 ["--format", "a.bas"] ["--format", "b.bas"]
      ⟨some "a.bas", some .source, false⟩ "a.bas" "b.bas" ⟨none, none⟩ "/" "/"
      (oneScript "/a.bas" blockSource.toUTF8.data.toList) (oneScript "/b.bas" _) "" ""
      (by decide +kernel) rfl rfl (by decide) (by decide +kernel) (by decide)
      (by decide +kernel) (by decide +kernel) (hopen _)

end CommandLine

end BasicSyntax
