import BasicSyntax.Proofs.Grammar.Shape
import BasicSyntax.Proofs.Record.Nodes

/-! # Outlines — nothing is lost in them

    An outline is read from the top.  The first line of a record tells what it is, but for the
    parts that have lines of their own (`Record.headText_same`).  The kind of a node and the
    fields on its line tell which parts these are.  How many items a sequence has is told by
    margins alone: its items stand one level deeper than what follows it.  So the outline of a
    record, with lines behind it that are not deeper, determines the record and where its lines
    end (`Record.outline_append`). -/

namespace BasicSyntax

namespace Record

/-! ## The line of a record -/

/-- A label, for the fields of nodes only. -/
def labelText : Option String → String
  | none => ""
  | some name => name ++ ": "

/-- The first line of a record without its margin. -/
def headline : Option String → Record → List Char
  | none, r => r.headText
  | some name, sequence (_ :: _) => name.toList ++ [':']
  | some name, r => name.toList ++ (':' :: ' ' :: r.headText)

/-- The lines of a record behind the first one. -/
def deeperLines (depth : Nat) : Record → List String
  | leaf _ => []
  | sequence items => outlineItems outlineIndent (depth + 1) items
  | node _ _ fields => outlineFields outlineIndent (depth + 1) fields

/-- A line with a margin. -/
def lineAt (depth : Nat) (text : List Char) : String :=
  String.ofList (List.replicate (2 * depth) ' ' ++ text)

theorem repeated_indent (depth : Nat) :
    (repeated outlineIndent depth).toList = List.replicate (2 * depth) ' ' := by
  induction depth with
  | zero => rfl
  | succ depth ih =>
      rw [repeated, String.toList_append, ih, Nat.mul_succ, List.replicate_add]
      rfl

/-- The blank of a label is dropped from the end of a line, and nothing else is. -/
theorem trimEnd_label (front : List Char) :
    Text.trimEnd Text.isSpace (front ++ [':', ' ']) = front ++ [':'] := by
  simp [Text.trimEnd, show Text.isSpace ' ' = true by decide,
    show Text.isSpace ':' = false by decide]

theorem outline_eq (depth : Nat) (label : Option String) (r : Record) :
    r.outline outlineIndent depth (labelText label) =
      lineAt depth (headline label r) :: deeperLines depth r := by
  have hline : ∀ (text : String) (more : List Char),
      text.toList = List.replicate (2 * depth) ' ' ++ more → text = lineAt depth more := by
    intro text more h
    rw [lineAt, ← h, String.ofList_toList]
  cases r with
  | leaf value =>
      refine congrArg (· :: []) (hline _ _ ?_)
      cases label <;>
        simp [repeated_indent, labelText, headline, headText]
  | node kind place fields =>
      refine congrArg (· :: _) (hline _ _ ?_)
      cases label <;>
        simp [repeated_indent, labelText, headline, headText, lineEnd]
  | sequence items =>
      cases items with
      | nil =>
          refine congrArg (· :: []) (hline _ _ ?_)
          cases label <;>
            simp [repeated_indent, labelText, headline, headText]
      | cons item rest =>
          refine congrArg (· :: _) (hline _ _ ?_)
          cases label with
          | none => simp [sequenceHead, repeated_indent, labelText, headline, headText]
          | some name =>
              have hlabel : (labelText (some name) == "") = false := by
                simp [labelText]
              rw [sequenceHead, hlabel, if_neg Bool.false_ne_true, String.toList_ofList,
                String.toList_append, repeated_indent, labelText, String.toList_append,
                ← List.append_assoc]
              exact (trimEnd_label _).trans (List.append_assoc ..)

/-! ## Margins -/

/-- How many blanks a line begins with. -/
def marginOf (line : String) : Nat := (line.toList.takeWhile (· == ' ')).length

/-- Lines of which the first is not deeper than a depth. -/
def Shallow (depth : Nat) (lines : List String) : Prop :=
  ∀ line ∈ lines.head?, marginOf line ≤ 2 * depth

/-- A label that is the name of a field, if there is one. -/
def IsLabel (label : Option String) : Prop := ∀ name ∈ label, Plain name

variable {depth : Nat} {label : Option String} {r r' : Record}

theorem headline_some (name : String) (r : Record) :
    (∃ item rest, r = sequence (item :: rest)) ∧ headline (some name) r = name.toList ++ [':'] ∨
      headline (some name) r = name.toList ++ (':' :: ' ' :: r.headText) := by
  cases r with
  | leaf value => exact .inr rfl
  | node kind place fields => exact .inr rfl
  | sequence items =>
      cases items with
      | nil => exact .inr rfl
      | cons item rest => exact .inl ⟨⟨item, rest, rfl⟩, rfl⟩

theorem headline_visible (hlabel : IsLabel label) (r : Record) :
    ∃ c more, headline label r = c :: more ∧ c ≠ ' ' := by
  cases label with
  | none => exact r.headText_visible
  | some name =>
      have hname : Plain name := hlabel name rfl
      have hvisible := word_visible (mt String.toList_eq_nil_iff.mp hname.1)
        (hname.not_mem (by decide) rfl)
      rcases headline_some name r with ⟨-, heq⟩ | heq <;> rw [heq] <;> exact hvisible _

/-- Two records with the same first line under the same label are alike on it. -/
theorem headline_same (h : r.WellNamed) (h' : r'.WellNamed)
    (heq : headline label r = headline label r') : SameHead r r' := by
  cases label with
  | none => exact headText_same h h' heq
  | some name =>
      rcases headline_some name r with ⟨⟨item, rest, rfl⟩, hr⟩ | hr
      · rcases headline_some name r' with ⟨⟨item', rest', rfl⟩, -⟩ | hr'
        · exact .items
        · rw [hr, hr'] at heq
          exact nomatch List.append_cancel_left heq
      · rcases headline_some name r' with ⟨-, hr'⟩ | hr'
        · rw [hr, hr'] at heq
          exact nomatch List.append_cancel_left heq
        · rw [hr, hr'] at heq
          have htext := (List.cons.inj (List.cons.inj (List.append_cancel_left heq)).2).2
          exact headText_same h h' htext

/-- The first line of a record is at the depth of the record. -/
theorem marginOf_headline (hlabel : IsLabel label) (r : Record) (depth : Nat) :
    marginOf (lineAt depth (headline label r)) = 2 * depth := by
  obtain ⟨c, more, heq, hc⟩ := headline_visible hlabel r
  rw [marginOf, lineAt, String.toList_ofList, heq, List.takeWhile_append_of_pos,
    List.takeWhile_cons_of_neg (by rwa [beq_iff_eq]), List.append_nil, List.length_replicate]
  intro d hd
  rw [List.eq_of_mem_replicate hd]
  rfl

/-- Lines that begin with a record are as shallow as the record. -/
theorem shallow_outline (hlabel : IsLabel label) (r : Record) {depth least : Nat}
    (rest : List String) :
    Shallow least (r.outline outlineIndent depth (labelText label) ++ rest) ↔ depth ≤ least := by
  have hmargin := marginOf_headline hlabel r depth
  rw [outline_eq, List.cons_append, Shallow, List.head?_cons]
  constructor
  · intro hshallow
    have hfirst := hshallow _ rfl
    omega
  · rintro hle _ ⟨⟩
    omega

/-- The first line of a record is read, and what is left are the lines behind it. -/
theorem outline_first (h : r.WellNamed) (h' : r'.WellNamed) {rest rest' : List String}
    (heq : r.outline outlineIndent depth (labelText label) ++ rest =
      r'.outline outlineIndent depth (labelText label) ++ rest') :
    SameHead r r' ∧ deeperLines depth r ++ rest = deeperLines depth r' ++ rest' := by
  rw [outline_eq, outline_eq, List.cons_append, List.cons_append] at heq
  obtain ⟨hline, hlines⟩ := List.cons.inj heq
  rw [lineAt, lineAt, ← String.toList_inj, String.toList_ofList, String.toList_ofList] at hline
  exact ⟨headline_same h h' (List.append_cancel_left hline), hlines⟩

theorem Shallow.mono {least most : Nat} {lines : List String} (h : Shallow least lines)
    (hle : least ≤ most) : Shallow most lines :=
  fun line hline => Nat.le_trans (h line hline) (Nat.mul_le_mul_left 2 hle)

theorem isLabel_none : IsLabel none := nofun

theorem isLabel_some {name : String} (h : Plain name) : IsLabel (some name) := by
  rintro _ ⟨⟩
  exact h

theorem outlineFields_other {name : String} (h : ∀ value, r ≠ leaf value)
    (rest : List (String × Record)) :
    outlineFields outlineIndent depth ((name, r) :: rest) =
      r.outline outlineIndent depth (labelText (some name)) ++
        outlineFields outlineIndent depth rest := by
  rw [outlineFields]
  · rfl
  · exact h

/-- Items are no deeper than they stand. -/
theorem shallow_items {depth least : Nat} {rest : List String} (hrest : Shallow least rest)
    (hle : least ≤ depth) : ∀ items : List Record,
      Shallow depth (outlineItems outlineIndent depth items ++ rest)
  | [] => hrest.mono hle
  | item :: items => by
      rw [outlineItems, List.append_assoc]
      exact (shallow_outline isLabel_none item _).mpr (Nat.le_refl depth)

/-- Items are deeper than what follows their sequence. -/
theorem not_shallow_items {depth : Nat} (item : Record) (items : List Record)
    (rest : List String) :
    ¬ Shallow depth (outlineItems outlineIndent (depth + 1) (item :: items) ++ rest) := by
  rw [outlineItems, List.append_assoc]
  intro h
  have hle := (shallow_outline isLabel_none item _).mp h
  omega

/-- Fields are no deeper than they stand. -/
theorem shallow_fields {depth least : Nat} {rest : List String} (hrest : Shallow least rest)
    (hle : least ≤ depth) : ∀ fields : List (String × Record),
      (∀ name ∈ fields.map Prod.fst, Plain name) →
        Shallow depth (outlineFields outlineIndent depth fields ++ rest)
  | [], _ => hrest.mono hle
  | (name, r) :: fields, hplain => by
      obtain ⟨hname, hplain'⟩ := List.forall_mem_cons.mp hplain
      rcases r.leaf_or_other with ⟨value, rfl⟩ | h
      · exact shallow_fields hrest hle fields hplain'
      · rw [outlineFields_other h, List.append_assoc]
        exact (shallow_outline (isLabel_some hname) r _).mpr (Nat.le_refl depth)

/-! ## Reading an outline -/

mutual

/-- **OUTLINES** are read in one way: with lines behind it that are not deeper, the outline of a
    record determines the record and where its lines end. -/
theorem outline_append : ∀ (r : Record) {r' : Record} {depth : Nat} {label : Option String}
    {rest rest' : List String}, r.WellNamed → r'.WellNamed → Shallow depth rest →
      Shallow depth rest' →
      r.outline outlineIndent depth (labelText label) ++ rest =
        r'.outline outlineIndent depth (labelText label) ++ rest' → r = r' ∧ rest = rest'
  | leaf value, r', depth, label, rest, rest', h, h', _, _, heq => by
      obtain ⟨hsame, hlines⟩ := outline_first h h' heq
      cases hsame with
      | leaf _ => exact ⟨rfl, hlines⟩
  | sequence items, r', depth, label, rest, rest', h, h', hrest, hrest', heq => by
      obtain ⟨hsame, hlines⟩ := outline_first h h' heq
      have hread := @items_append items
      cases h with
      | sequence hitems =>
          cases h' with
          | sequence hitems' =>
              obtain ⟨rfl, hend⟩ := hread hitems hitems' hrest hrest' hlines
              exact ⟨rfl, hend⟩
          | _ => nomatch hsame
  | node kind place fields, r', depth, label, rest, rest', h, h', hrest, hrest', heq => by
      obtain ⟨hsame, hlines⟩ := outline_first h h' heq
      have hread := @fields_append fields
      cases h with
      | node hnames hfields =>
          cases hsame with
          | node _ _ hscalars =>
              cases h' with
              | node hnames' hfields' =>
                  have hplain : ∀ name ∈ fields.map Prod.fst, Plain name :=
                    hnames ▸ kind.fields_named.2
                  obtain ⟨rfl, hend⟩ :=
                    hread hscalars hplain hfields hfields' hrest hrest' hlines
                  exact ⟨rfl, hend⟩

/-- Items end where a line is less deep. -/
theorem items_append : ∀ (items : List Record) {items' : List Record} {depth : Nat}
    {rest rest' : List String}, (∀ r ∈ items, r.WellNamed) → (∀ r ∈ items', r.WellNamed) →
      Shallow depth rest → Shallow depth rest' →
      outlineItems outlineIndent (depth + 1) items ++ rest =
        outlineItems outlineIndent (depth + 1) items' ++ rest' → items = items' ∧ rest = rest'
  | [], items', depth, rest, rest', h, h', hrest, hrest', heq => by
      cases items' with
      | nil => exact ⟨rfl, heq⟩
      | cons item' items' =>
          rw [show rest = _ from heq] at hrest
          exact absurd hrest (not_shallow_items item' items' rest')
  | item :: items, items', depth, rest, rest', h, h', hrest, hrest', heq => by
      cases items' with
      | nil =>
          rw [← show _ = rest' from heq] at hrest'
          exact absurd hrest' (not_shallow_items item items rest)
      | cons item' items' =>
          obtain ⟨hitem, hitems⟩ := List.forall_mem_cons.mp h
          obtain ⟨hitem', hitems'⟩ := List.forall_mem_cons.mp h'
          rw [outlineItems, outlineItems, List.append_assoc, List.append_assoc] at heq
          obtain ⟨rfl, hlines⟩ := @outline_append item item' (depth + 1) none _ _ hitem hitem'
            (shallow_items hrest (Nat.le_succ depth) items)
            (shallow_items hrest' (Nat.le_succ depth) items') heq
          obtain ⟨rfl, hend⟩ := items_append items hitems hitems' hrest hrest' hlines
          exact ⟨rfl, hend⟩

/-- Fields of the same names, with the same plain values, end where their node does. -/
theorem fields_append : ∀ (fields : List (String × Record)) {fields' : List (String × Record)}
    {depth : Nat} {rest rest' : List String}, List.Forall₂ SameScalar fields fields' →
      (∀ name ∈ fields.map Prod.fst, Plain name) →
      (∀ f ∈ fields, f.2.WellNamed) → (∀ f ∈ fields', f.2.WellNamed) →
      Shallow depth rest → Shallow depth rest' →
      outlineFields outlineIndent (depth + 1) fields ++ rest =
        outlineFields outlineIndent (depth + 1) fields' ++ rest' →
          fields = fields' ∧ rest = rest'
  | [], fields', depth, rest, rest', hscalars, _, h, h', hrest, hrest', heq => by
      cases hscalars with
      | nil => exact ⟨rfl, heq⟩
  | (name, r) :: fields, fields', depth, rest, rest', hscalars, hplain, h, h', hrest, hrest',
    heq => by
      obtain ⟨hname, hplain'⟩ := List.forall_mem_cons.mp hplain
      obtain ⟨hr, hfields⟩ := List.forall_mem_cons.mp h
      have hread := @outline_append r
      cases hscalars with
      | @cons _ f' _ fields' hscalar hscalars =>
          obtain ⟨hr', hfields'⟩ := List.forall_mem_cons.mp h'
          cases hscalar with
          | leaf _ value =>
              obtain ⟨rfl, hend⟩ :=
                fields_append fields hscalars hplain' hfields hfields' hrest hrest' heq
              exact ⟨rfl, hend⟩
          | other _ hno hno' =>
              rw [outlineFields_other hno, outlineFields_other hno', List.append_assoc,
                List.append_assoc] at heq
              have hplain'' := SameScalar.names hscalars ▸ hplain'
              obtain ⟨rfl, hlines⟩ := @hread _ _ (some name) _ _ hr hr'
                (shallow_fields hrest (Nat.le_succ depth) fields hplain')
                (shallow_fields hrest' (Nat.le_succ depth) fields' hplain'') heq
              obtain ⟨rfl, hend⟩ :=
                fields_append fields hscalars hplain' hfields hfields' hrest hrest' hlines
              exact ⟨rfl, hend⟩

end

/-! ## Lines in one text -/

theorem headline_line (hlabel : IsLabel label) (h : r.WellNamed) :
    '\n' ∉ (lineAt depth (headline label r)).toList := by
  have htext := headText_line h
  have hmargin : '\n' ∉ List.replicate (2 * depth) ' ' := fun hmem =>
    absurd (List.eq_of_mem_replicate hmem) (by decide)
  cases label with
  | none => simp [lineAt, headline, hmargin, htext]
  | some name =>
      have hname : '\n' ∉ name.toList := Plain.not_mem (hlabel name rfl) (by decide) rfl
      rcases headline_some name r with ⟨-, heq⟩ | heq
      · simp [lineAt, heq, hmargin, hname]
      · simp [lineAt, heq, hmargin, hname, htext]

mutual

/-- No line of an outline has a newline in it. -/
theorem outline_lines : ∀ (r : Record) {depth : Nat} {label : Option String}, r.WellNamed →
    IsLabel label → ∀ line ∈ r.outline outlineIndent depth (labelText label),
      '\n' ∉ line.toList
  | leaf value, depth, label, h, hlabel => by
      rw [outline_eq]
      exact List.forall_mem_singleton.mpr (headline_line hlabel h)
  | sequence items, depth, label, h, hlabel => by
      rw [outline_eq]
      cases h with
      | sequence hitems =>
          exact List.forall_mem_cons.mpr ⟨headline_line hlabel (.sequence hitems),
            items_lines items hitems⟩
  | node kind place fields, depth, label, h, hlabel => by
      rw [outline_eq]
      cases h with
      | node hnames hfields =>
          exact List.forall_mem_cons.mpr ⟨headline_line hlabel (.node hnames hfields),
            fields_lines fields (hnames ▸ kind.fields_named.2) hfields⟩

theorem items_lines : ∀ (items : List Record) {depth : Nat}, (∀ r ∈ items, r.WellNamed) →
    ∀ line ∈ outlineItems outlineIndent depth items, '\n' ∉ line.toList
  | [], _, _ => nofun
  | item :: items, depth, h => by
      obtain ⟨hitem, hitems⟩ := List.forall_mem_cons.mp h
      rw [outlineItems]
      exact List.forall_mem_append.mpr ⟨outline_lines item hitem isLabel_none,
        items_lines items hitems⟩

theorem fields_lines : ∀ (fields : List (String × Record)) {depth : Nat},
    (∀ name ∈ fields.map Prod.fst, Plain name) → (∀ f ∈ fields, f.2.WellNamed) →
      ∀ line ∈ outlineFields outlineIndent depth fields, '\n' ∉ line.toList
  | [], _, _, _ => nofun
  | (name, r) :: fields, depth, hplain, h => by
      obtain ⟨hname, hplain'⟩ := List.forall_mem_cons.mp hplain
      obtain ⟨hr, hfields⟩ := List.forall_mem_cons.mp h
      have hlines := @outline_lines r depth (some name) hr (isLabel_some hname)
      have hmore := @fields_lines fields depth hplain' hfields
      rcases r.leaf_or_other with ⟨value, rfl⟩ | hleaf
      · exact hmore
      · rw [outlineFields_other hleaf]
        exact List.forall_mem_append.mpr ⟨hlines, hmore⟩

end

/-- Lines without newlines are told apart by the text that they make. -/
theorem intercalate_injective {lines lines' : List String} (hne : lines ≠ []) (hne' : lines' ≠ [])
    (h : ∀ line ∈ lines, '\n' ∉ line.toList) (h' : ∀ line ∈ lines', '\n' ∉ line.toList)
    (heq : "\n".intercalate lines = "\n".intercalate lines') : lines = lines' := by
  have hsplit : ∀ {lines : List String}, lines ≠ [] → (∀ line ∈ lines, '\n' ∉ line.toList) →
      List.splitOn '\n' ("\n".intercalate lines).toList = lines.map String.toList := by
    intro lines hne h
    rw [String.toList_intercalate]
    exact List.splitOn_intercalate '\n' (List.forall_mem_map.mpr h) (mt List.map_eq_nil_iff.mp hne)
  have hmap := hsplit hne' h'
  rw [← heq, hsplit hne h] at hmap
  exact List.map_injective_iff.mpr (fun _ _ => String.toList_inj.mp) hmap

/-- **THE OUTLINE** of a record determines it. -/
theorem outlineText_injective (h : r.WellNamed) (h' : r'.WellNamed)
    (heq : r.outlineText outlineIndent = r'.outlineText outlineIndent) : r = r' := by
  have hne : ∀ r : Record, r.outline outlineIndent 0 (labelText none) ≠ [] := by
    intro r
    rw [outline_eq]
    exact List.cons_ne_nil _ _
  have hlines := intercalate_injective (hne r) (hne r') (outline_lines r h isLabel_none)
    (outline_lines r' h' isLabel_none) heq
  have hend : Shallow 0 [] := nofun
  exact (@outline_append r r' 0 none [] [] h h' hend hend (congrArg (· ++ []) hlines)).1

end Record

/-! ## Outlines of nodes -/

/-- The outline of a node all of whose parts have a source form determines it, down to the point
    of every part. -/
theorem Node.outline_injective {n m : Node} (hn : n.IsPrintable) (hm : m.IsPrintable)
    (h : n.outline = m.outline) : n = m :=
  toRecord_injective hn hm
    (Record.outlineText_injective n.toRecord_wellNamed m.toRecord_wellNamed h)

namespace Program

/-- **NOTHING IS LOST** in an outline: trees that are read from any two sources and have the same
    outline are the same, and every part of them is at the same point. -/
theorem read_outline (source source' : String) (stmts stmts' : List Node)
    (h : read source = .ok stmts) (h' : read source' = .ok stmts') (n m : Node) (hn : n ∈ stmts)
    (hm : m ∈ stmts') (heq : n.outline = m.outline) : n = m :=
  n.outline_injective (read_entries h n hn).printable (read_entries h' m hm).printable heq

/-- An application read from two sources, of which one has a separator at its end. -/
theorem read_outline_application :
    ∃ n m : Node, read "f x" = .ok [n] ∧ read "f x;" = .ok [m] ∧ n.outline = m.outline ∧
      n = m := by
  have h : read "f x" = .ok [.application (.binder ⟨"f", some ⟨1, 1⟩⟩)
      [.binder ⟨"x", some ⟨1, 3⟩⟩]] := rfl
  have h' : read "f x;" = .ok [.application (.binder ⟨"f", some ⟨1, 1⟩⟩)
      [.binder ⟨"x", some ⟨1, 3⟩⟩]] := rfl
  exact ⟨_, _, h, h', rfl, read_outline "f x" "f x;" _ _ h h' _ _ List.mem_cons_self
    List.mem_cons_self rfl⟩

end Program

end BasicSyntax
