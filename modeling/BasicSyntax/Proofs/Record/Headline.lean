import BasicSyntax.Proofs.Text.Digits
import BasicSyntax.Proofs.Text.Quoted
import BasicSyntax.Record.Outline
import Mathlib.Data.List.Forall2

/-! # Headlines — what the first line of a record tells

    In an outline the first line of a record shows what it is: a plain value, a sequence, or the
    kind of a node with its place and those of its fields that hold plain values.  Nothing else
    is shown alike (`headText_same`).  The line is read from the left.  A word ends at a blank,
    the name of a field at the equals sign, and a text in quotes at the quote that closes it,
    whatever stands in it. -/

namespace BasicSyntax

/-! ## Where parts of a line end -/

/-- What precedes a mark and what follows it are determined by the whole, if the mark is not in
    what precedes it. -/
theorem mark_append {mark : Char} {rest rest' : List Char} : ∀ {u u' : List Char}, mark ∉ u →
    mark ∉ u' → u ++ mark :: rest = u' ++ mark :: rest' → u = u' ∧ rest = rest' := by
  intro u
  induction u with
  | nil =>
      intro u' _ hu' heq
      cases u' with
      | nil => exact ⟨rfl, (List.cons.inj heq).2⟩
      | cons c u' => exact absurd (List.cons.inj heq).1 (List.ne_of_not_mem_cons hu')
  | cons c u ih =>
      intro u' hu hu' heq
      cases u' with
      | nil => exact absurd (List.cons.inj heq).1.symm (List.ne_of_not_mem_cons hu)
      | cons c' u' =>
          obtain ⟨rfl, heq'⟩ := List.cons.inj heq
          obtain ⟨rfl, hrest⟩ := ih (List.not_mem_of_not_mem_cons hu)
            (List.not_mem_of_not_mem_cons hu') heq'
          exact ⟨rfl, hrest⟩

/-- What begins with a text does not begin with a mark that is not in the text. -/
theorem append_foreign {u : List Char} (hne : u ≠ []) {mark : Char} (hu : mark ∉ u)
    {rest rest' : List Char} : u ++ rest ≠ mark :: rest' := by
  intro heq
  obtain ⟨c, more, rfl⟩ := List.exists_cons_of_ne_nil hne
  exact List.ne_of_not_mem_cons hu (List.cons.inj heq).1.symm

/-- A text that is empty or begins with a blank. -/
def Apart (rest : List Char) : Prop := ∀ c ∈ rest.head?, c = ' '

theorem apart_nil : Apart [] := nofun

theorem Apart.blank {rest : List Char} (h : Apart rest) : ∃ more, rest ++ [' '] = ' ' :: more := by
  cases rest with
  | nil => exact ⟨[], rfl⟩
  | cons c rest =>
      rw [h c rfl]
      exact ⟨rest ++ [' '], rfl⟩

/-- A word and what stands apart from it are determined by the whole. -/
theorem word_append {u u' rest rest' : List Char} (hu : ' ' ∉ u) (hu' : ' ' ∉ u')
    (h : Apart rest) (h' : Apart rest') (heq : u ++ rest = u' ++ rest') :
    u = u' ∧ rest = rest' := by
  obtain ⟨more, hmore⟩ := h.blank
  obtain ⟨more', hmore'⟩ := h'.blank
  have hmarked : u ++ ' ' :: more = u' ++ ' ' :: more' := by
    rw [← hmore, ← hmore', ← List.append_assoc, ← List.append_assoc, heq]
  obtain ⟨rfl, -⟩ := mark_append hu hu' hmarked
  exact ⟨rfl, List.append_cancel_left heq⟩

/-- What begins with a word begins with no blank. -/
theorem word_visible {u : List Char} (hne : u ≠ []) (hu : ' ' ∉ u) (rest : List Char) :
    ∃ c more, u ++ rest = c :: more ∧ c ≠ ' ' := by
  obtain ⟨c, more, rfl⟩ := List.exists_cons_of_ne_nil hne
  exact ⟨c, more ++ rest, rfl, Ne.symm (List.ne_of_not_mem_cons hu)⟩

/-! ## Plain values -/

namespace Datum

/-- A plain value that is shown as a word: any but a text. -/
def IsWord : Datum → Prop
  | text _ => False
  | _ => True

theorem word_or_text : ∀ v : Datum, v.IsWord ∨ ∃ value, v = .text value
  | none | truth _ | integer _ => .inl trivial
  | text value => .inr ⟨value, rfl⟩

theorem IsWord.chars {v : Datum} (h : v.IsWord) :
    ∀ c ∈ v.listing.toList, c = '-' ∨ c.isAlphanum = true := by
  cases v with
  | none => simp [listing]
  | truth value => cases value <;> simp [listing]
  | integer value =>
      intro c hc
      refine (Text.number_chars value c hc).imp_right fun hdigit => ?_
      rw [Char.isAlphanum, hdigit, Bool.or_true]
  | text value => exact h.elim

/-- A word has no blank, quote, bracket or newline in it. -/
theorem IsWord.not_mem {v : Datum} (h : v.IsWord) {c : Char} (hc : c ≠ '-')
    (hplain : c.isAlphanum = false) : c ∉ v.listing.toList := by
  intro hmem
  rcases h.chars c hmem with rfl | hc'
  · exact hc rfl
  · exact Bool.noConfusion (hplain.symm.trans hc')

theorem listing_text (text : String) :
    (Datum.text text).listing.toList = Text.quotedChars text.toList := String.toList_ofList

/-- A number is shown like nothing without digits. -/
theorem listing_integer (value : Int) {u : List Char} (hu : ∀ c ∈ u, c.isDigit = false) :
    (integer value).listing.toList ≠ u := by
  rintro rfl
  obtain ⟨c, hc, hdigit⟩ := Text.number_digit value
  exact Bool.noConfusion ((hu c hc).symm.trans hdigit)

theorem listing_nonempty (v : Datum) : v.listing.toList ≠ [] := by
  cases v with
  | none => decide
  | truth value => cases value <;> decide
  | integer value => exact listing_integer value (List.forall_mem_nil _)
  | text text =>
      rw [listing_text]
      exact List.cons_ne_nil _ _

/-- Plain values that are words are shown alike only if they are the same. -/
theorem IsWord.injective {v v' : Datum} (h : v.IsWord) (h' : v'.IsWord)
    (heq : v.listing.toList = v'.listing.toList) : v = v' := by
  have hnone : ∀ c ∈ Datum.none.listing.toList, c.isDigit = false := by simp [listing]
  have htruth : ∀ value : Bool, ∀ c ∈ (truth value).listing.toList, c.isDigit = false := by
    simp [listing]
  cases v with
  | text _ => exact h.elim
  | none =>
      cases v' with
      | none => rfl
      | truth value => cases value <;> exact absurd heq (by decide)
      | integer value => exact absurd heq.symm (listing_integer value hnone)
      | text _ => exact h'.elim
  | truth value =>
      cases v' with
      | none => cases value <;> exact absurd heq (by decide)
      | truth value' => cases value <;> cases value' <;> first | rfl | exact absurd heq (by decide)
      | integer value' => exact absurd heq.symm (listing_integer value' (htruth value))
      | text _ => exact h'.elim
  | integer value =>
      cases v' with
      | none => exact absurd heq (listing_integer value hnone)
      | truth value' => exact absurd heq (listing_integer value (htruth value'))
      | integer value' => exact congrArg integer (Text.number_injective (String.toList_inj.mp heq))
      | text _ => exact h'.elim

theorem listing_visible (v : Datum) : ∃ c more, v.listing.toList = c :: more ∧ c ≠ ' ' := by
  rcases v.word_or_text with hv | ⟨text, rfl⟩
  · rw [← List.append_nil v.listing.toList]
    exact word_visible v.listing_nonempty (hv.not_mem (by decide) rfl) []
  · rw [listing_text]
    refine ⟨_, _, rfl, ?_⟩
    rcases Text.quoteFor_quote text.toList with h | h <;> rw [h] <;> decide

/-- A text in quotes is not shown as a word, nor is anything that begins as one. -/
theorem listing_quote {v : Datum} (h : v.IsWord) (text : String) {rest rest' : List Char} :
    v.listing.toList ++ rest ≠ (Datum.text text).listing.toList ++ rest' := by
  have hclass : ∀ c, Text.IsQuote c → c ≠ '-' ∧ c.isAlphanum = false := by
    rintro c (rfl | rfl) <;> decide
  obtain ⟨hminus, hplain⟩ := hclass _ (Text.quoteFor_quote text.toList)
  rw [listing_text]
  exact append_foreign v.listing_nonempty (h.not_mem hminus hplain)

/-- **PLAIN VALUES** are determined by what is shown, and so is where they end in a line. -/
theorem listing_append {v v' : Datum} {rest rest' : List Char} (h : Apart rest)
    (h' : Apart rest') (heq : v.listing.toList ++ rest = v'.listing.toList ++ rest') :
    v = v' ∧ rest = rest' := by
  rcases word_or_text v with hv | ⟨text, rfl⟩
  · rcases word_or_text v' with hv' | ⟨text', rfl⟩
    · obtain ⟨hsame, hrest⟩ := word_append (hv.not_mem (by decide) rfl)
        (hv'.not_mem (by decide) rfl) h h' heq
      exact ⟨hv.injective hv' hsame, hrest⟩
    · exact absurd heq (listing_quote hv text')
  · rcases word_or_text v' with hv' | ⟨text', rfl⟩
    · exact absurd heq.symm (listing_quote hv' text)
    · rw [listing_text, listing_text] at heq
      obtain ⟨hsame, hrest⟩ := Text.quotedChars_append heq
      exact ⟨congrArg Datum.text (String.toList_inj.mp hsame), hrest⟩

theorem listing_line (v : Datum) : '\n' ∉ v.listing.toList := by
  rcases v.word_or_text with hv | ⟨text, rfl⟩
  · exact hv.not_mem (by decide) rfl
  · rw [listing_text]
    exact Text.quotedChars_line text.toList

end Datum

/-! ## Places and fields -/

theorem Place.text_chars (place : Place) :
    place.text.toList = (toString place.line).toList ++ ':' :: (toString place.column).toList := by
  show (toString place.line ++ ":" ++ toString place.column).toList = _
  rw [String.toList_append, String.toList_append, List.append_assoc]
  rfl

theorem Place.text_line (place : Place) : '\n' ∉ place.text.toList := by
  rw [text_chars, List.mem_append, List.mem_cons]
  exact not_or.mpr ⟨Text.number_line _, not_or.mpr ⟨by decide, Text.number_line _⟩⟩

/-- Places are shown alike only if they are the same. -/
theorem Place.text_injective {place place' : Place}
    (heq : place.text.toList = place'.text.toList) : place = place' := by
  have hcolon : ∀ value : Int, ':' ∉ (toString value).toList := by
    intro value hmem
    rcases Text.number_chars value ':' hmem with h | h <;> exact absurd h (by decide)
  rw [text_chars, text_chars] at heq
  obtain ⟨hline, hcolumn⟩ := mark_append (hcolon _) (hcolon _) heq
  obtain ⟨line, column⟩ := place
  obtain ⟨line', column'⟩ := place'
  exact Place.mk.injEq .. ▸ ⟨Text.number_injective (String.toList_inj.mp hline),
    Text.number_injective (String.toList_inj.mp hcolumn)⟩

namespace Kind

theorem name_injective {kind kind' : Kind} (h : kind.name = kind'.name) : kind = kind' := by
  have hread : ∀ kind : Kind, ofName? kind.name = some kind := by
    intro kind
    cases kind <;> decide
  exact Option.some.inj ((hread kind).symm.trans (h ▸ hread kind'))

/-- The name of a kind is a word of letters. -/
theorem name_chars (kind : Kind) : kind.name.toList ≠ [] ∧
    ∀ c ∈ kind.name.toList, c.isAlpha = true ∧ c.isDigit = false := by
  cases kind <;> simp [name]

theorem not_mem_name (kind : Kind) {c : Char} (hc : c.isAlpha = false) :
    c ∉ kind.name.toList := by
  intro hmem
  exact Bool.noConfusion (hc.symm.trans (kind.name_chars.2 c hmem).1)

/-- Fields have names of their own, in which there is no mark that outlines use. -/
theorem fields_named (kind : Kind) : kind.fields.Nodup ∧
    ∀ name ∈ kind.fields, name ≠ "" ∧ ∀ c ∈ name.toList, c = '_' ∨ c.isAlpha = true := by
  cases kind <;> simp [fields]

end Kind

namespace Record

theorem leaf_or_other : ∀ r : Record, (∃ value, r = leaf value) ∨ ∀ value, r ≠ leaf value
  | leaf value => .inl ⟨value, rfl⟩
  | sequence _ => .inr nofun
  | node _ _ _ => .inr nofun

/-- Fields of one name that hold the same plain value, or neither of which holds one. -/
inductive SameScalar : String × Record → String × Record → Prop
  | leaf (name : String) (value : Datum) : SameScalar (name, leaf value) (name, leaf value)
  | other (name : String) {r r' : Record} : (∀ value, r ≠ leaf value) →
      (∀ value, r' ≠ leaf value) → SameScalar (name, r) (name, r')

theorem SameScalar.names {fields fields' : List (String × Record)}
    (h : List.Forall₂ SameScalar fields fields') : fields.map Prod.fst = fields'.map Prod.fst := by
  induction h with
  | nil => rfl
  | cons hscalar _ ih => cases hscalar <;> exact congrArg (_ :: ·) ih

/-- What stands on the line of a node behind its kind. -/
def lineEnd (fields : List (String × Record)) (place : Option Place) : List Char :=
  (scalarTexts fields).toList ++ (placeText place).toList

section

variable {name : String} {fields fields' : List (String × Record)} {place place' : Option Place}

theorem lineEnd_leaf (value : Datum) : lineEnd ((name, leaf value) :: fields) place =
    ' ' :: (name.toList ++ '=' :: (value.listing.toList ++ lineEnd fields place)) := by
  simp only [lineEnd, scalarTexts, String.toList_append, List.append_assoc]
  rfl

theorem lineEnd_other {r : Record} (h : ∀ value, r ≠ leaf value) :
    lineEnd ((name, r) :: fields) place = lineEnd fields place := by
  rw [lineEnd, scalarTexts]
  · rfl
  · rintro _ value ⟨⟩
    exact h value rfl

theorem lineEnd_place (place : Place) :
    lineEnd [] (some place) = ' ' :: '@' :: place.text.toList := by
  rw [lineEnd, scalarTexts, placeText, String.toList_append]
  rfl

theorem lineEnd_apart : ∀ fields : List (String × Record), Apart (lineEnd fields place)
  | [] => by
      cases place with
      | none => exact apart_nil
      | some place =>
          rw [lineEnd_place]
          rintro _ ⟨⟩
          rfl
  | (name, r) :: fields => by
      rcases r.leaf_or_other with ⟨value, rfl⟩ | h
      · rw [lineEnd_leaf]
        rintro _ ⟨⟩
        rfl
      · rw [lineEnd_other h]
        exact lineEnd_apart fields

/-- Names that fields may have: not empty, and without a mark that outlines use. -/
def Plain (name : String) : Prop := name ≠ "" ∧ ∀ c ∈ name.toList, c = '_' ∨ c.isAlpha = true

theorem Plain.not_mem (h : Plain name) {c : Char} (hline : c ≠ '_') (hc : c.isAlpha = false) :
    c ∉ name.toList := by
  intro hmem
  rcases h.2 c hmem with rfl | hc'
  · exact hline rfl
  · exact Bool.noConfusion (hc.symm.trans hc')

/-- A field that is not there is not shown. -/
theorem lineEnd_foreign (hname : Plain name) {rest : List Char} :
    ∀ {fields : List (String × Record)}, (∀ name' ∈ fields.map Prod.fst, Plain name') →
      name ∉ fields.map Prod.fst → lineEnd fields place ≠ ' ' :: (name.toList ++ '=' :: rest) := by
  intro fields
  induction fields with
  | nil =>
      intro _ _ heq
      cases place with
      | none => exact nomatch heq
      | some place =>
          rw [lineEnd_place] at heq
          exact append_foreign (mt String.toList_eq_nil_iff.mp hname.1)
            (hname.not_mem (by decide) rfl) (List.cons.inj heq).2.symm
  | cons f fields ih =>
      obtain ⟨name', r⟩ := f
      intro hplain hno heq
      rw [List.map_cons] at hplain hno
      obtain ⟨hname', hplain'⟩ := List.forall_mem_cons.mp hplain
      rw [List.mem_cons, not_or] at hno
      rcases r.leaf_or_other with ⟨value, rfl⟩ | h
      · rw [lineEnd_leaf] at heq
        obtain ⟨hsame, -⟩ := mark_append (hname'.not_mem (by decide) rfl)
          (hname.not_mem (by decide) rfl) (List.cons.inj heq).2
        exact hno.1 (String.toList_inj.mp hsame).symm
      · rw [lineEnd_other h] at heq
        exact ih hplain' hno.2 heq

/-- **THE LINE OF A NODE** tells which of its fields hold plain values, these values, and the
    place of the node. -/
theorem lineEnd_injective : ∀ {fields fields' : List (String × Record)},
    (∀ name ∈ fields.map Prod.fst, Plain name) → (fields.map Prod.fst).Nodup →
      fields.map Prod.fst = fields'.map Prod.fst →
        lineEnd fields place = lineEnd fields' place' →
          List.Forall₂ SameScalar fields fields' ∧ place = place' := by
  intro fields
  induction fields with
  | nil =>
      intro fields' _ _ hnames heq
      obtain rfl := List.map_eq_nil_iff.mp hnames.symm
      refine ⟨.nil, ?_⟩
      cases place with
      | none =>
          cases place' with
          | none => rfl
          | some place' =>
              rw [lineEnd_place] at heq
              exact nomatch heq
      | some place =>
          cases place' with
          | none =>
              rw [lineEnd_place] at heq
              exact nomatch heq
          | some place' =>
              rw [lineEnd_place, lineEnd_place] at heq
              have htext := (List.cons.inj (List.cons.inj heq).2).2
              exact congrArg some (Place.text_injective htext)
  | cons f fields ih =>
      obtain ⟨name, r⟩ := f
      intro fields' hplain hnodup hnames heq
      cases fields' with
      | nil => exact nomatch hnames
      | cons f' fields' =>
          obtain ⟨name', r'⟩ := f'
          obtain ⟨rfl, hnames'⟩ := List.cons.inj hnames
          rw [List.map_cons] at hplain hnodup
          obtain ⟨hname, hplain'⟩ := List.forall_mem_cons.mp hplain
          obtain ⟨hno, hnodup'⟩ := List.nodup_cons.mp hnodup
          rcases r.leaf_or_other with ⟨value, rfl⟩ | h
          · rcases r'.leaf_or_other with ⟨value', rfl⟩ | h'
            · rw [lineEnd_leaf, lineEnd_leaf] at heq
              have hvalues := (List.cons.inj (List.append_cancel_left (List.cons.inj heq).2)).2
              obtain ⟨rfl, hend⟩ := Datum.listing_append (lineEnd_apart fields)
                (lineEnd_apart fields') hvalues
              obtain ⟨hsame, hplace⟩ := ih hplain' hnodup' hnames' hend
              exact ⟨.cons (.leaf name value) hsame, hplace⟩
            · rw [lineEnd_leaf, lineEnd_other h'] at heq
              rw [hnames'] at hplain' hno
              exact absurd heq.symm (lineEnd_foreign hname hplain' hno)
          · rw [lineEnd_other h] at heq
            rcases r'.leaf_or_other with ⟨value', rfl⟩ | h'
            · rw [lineEnd_leaf] at heq
              exact absurd heq (lineEnd_foreign hname hplain' hno)
            · rw [lineEnd_other h'] at heq
              obtain ⟨hsame, hplace⟩ := ih hplain' hnodup' hnames' heq
              exact ⟨.cons (.other name h h') hsame, hplace⟩

theorem lineEnd_line : ∀ {fields : List (String × Record)},
    (∀ name ∈ fields.map Prod.fst, Plain name) → '\n' ∉ lineEnd fields place := by
  intro fields
  induction fields with
  | nil =>
      intro _
      cases place with
      | none => exact List.not_mem_nil
      | some place =>
          rw [lineEnd_place]
          simp [place.text_line]
  | cons f fields ih =>
      obtain ⟨name, r⟩ := f
      intro hplain
      rw [List.map_cons] at hplain
      obtain ⟨hname, hplain'⟩ := List.forall_mem_cons.mp hplain
      rcases r.leaf_or_other with ⟨value, rfl⟩ | h
      · rw [lineEnd_leaf]
        simp [hname.not_mem (c := '\n') (by decide) rfl, value.listing_line, ih hplain']
      · rw [lineEnd_other h]
        exact ih hplain'

end

/-! ## First lines -/

/-- The fields of every node have the names that its kind gives them. -/
inductive WellNamed : Record → Prop
  | leaf (value : Datum) : WellNamed (leaf value)
  | sequence {items : List Record} : (∀ r ∈ items, WellNamed r) → WellNamed (sequence items)
  | node {kind : Kind} {place : Option Place} {fields : List (String × Record)} :
      fields.map Prod.fst = kind.fields → (∀ f ∈ fields, WellNamed f.2) →
      WellNamed (node kind place fields)

/-- What the first line of a record shows behind a label. -/
def headText : Record → List Char
  | leaf value => value.listing.toList
  | sequence [] => ['[', ']']
  | sequence (_ :: _) => ['-']
  | node kind place fields => kind.name.toList ++ lineEnd fields place

/-- Records that are alike on their first lines: the same plain values, sequences that both have
    items or both have none, nodes of one kind at one place with the same plain values. -/
inductive SameHead : Record → Record → Prop
  | leaf (value : Datum) : SameHead (leaf value) (leaf value)
  | empty : SameHead (sequence []) (sequence [])
  | items {item item' : Record} {rest rest' : List Record} :
      SameHead (sequence (item :: rest)) (sequence (item' :: rest'))
  | node (kind : Kind) (place : Option Place) {fields fields' : List (String × Record)} :
      List.Forall₂ SameScalar fields fields' → SameHead (node kind place fields)
        (node kind place fields')

theorem headText_visible : ∀ r : Record, ∃ c more, r.headText = c :: more ∧ c ≠ ' '
  | leaf value => value.listing_visible
  | sequence [] => ⟨_, _, rfl, by decide⟩
  | sequence (_ :: _) => ⟨_, _, rfl, by decide⟩
  | node kind place fields =>
      word_visible kind.name_chars.1 (kind.not_mem_name rfl) (lineEnd fields place)

theorem headText_line {r : Record} (h : r.WellNamed) : '\n' ∉ r.headText := by
  cases h with
  | leaf value => exact value.listing_line
  | @sequence items _ => cases items <;> simp [headText]
  | @node kind place fields hnames _ =>
      have hname : '\n' ∉ kind.name.toList := kind.not_mem_name rfl
      have hplain : ∀ name ∈ fields.map Prod.fst, Plain name := hnames ▸ kind.fields_named.2
      simp [headText, hname, lineEnd_line hplain]

/-- What does not begin with a letter is not how a node is shown. -/
theorem headText_letter (kind : Kind) {c : Char} (hc : c.isAlpha = false) (more rest : List Char) :
    c :: more ≠ kind.name.toList ++ rest :=
  (append_foreign kind.name_chars.1 (kind.not_mem_name hc)).symm

/-- A node is shown like no plain value. -/
theorem headText_node (kind : Kind) {rest : List Char} (h : Apart rest) (v : Datum) :
    v.listing.toList ≠ kind.name.toList ++ rest := by
  intro heq
  rcases v.word_or_text with hv | ⟨text, rfl⟩
  · rw [← List.append_nil v.listing.toList] at heq
    obtain ⟨hsame, -⟩ := word_append (hv.not_mem (by decide) rfl) (kind.not_mem_name rfl)
      apart_nil h heq
    cases v with
    | none => exact absurd hsame.symm (by cases kind <;> decide)
    | truth value => cases value <;> exact absurd hsame.symm (by cases kind <;> decide)
    | integer value =>
        have hletters : ∀ c ∈ kind.name.toList, c.isDigit = false := fun c hc =>
          (kind.name_chars.2 c hc).2
        exact absurd hsame (Datum.listing_integer value hletters)
    | text _ => exact hv.elim
  · rw [Datum.listing_text] at heq
    have hquote : (Text.quoteFor text.toList).isAlpha = false := by
      rcases Text.quoteFor_quote text.toList with h | h <;> rw [h] <;> rfl
    exact headText_letter kind hquote _ rest heq

/-- A sequence is shown like no plain value. -/
theorem headText_sequence (v : Datum) :
    v.listing.toList ≠ ['[', ']'] ∧ v.listing.toList ≠ ['-'] := by
  rcases v.word_or_text with hv | ⟨text, rfl⟩
  · refine ⟨fun heq => ?_, fun heq => ?_⟩
    · refine hv.not_mem (c := '[') (by decide) rfl ?_
      rw [heq]
      exact List.mem_cons_self
    · cases v with
      | none => exact absurd heq (by decide)
      | truth value => cases value <;> exact absurd heq (by decide)
      | integer value =>
          exact absurd heq (Datum.listing_integer value (List.forall_mem_singleton.mpr rfl))
      | text _ => exact hv.elim
  · rw [Datum.listing_text]
    have hquote := Text.quoteFor_quote text.toList
    refine ⟨fun heq => ?_, fun heq => ?_⟩
    all_goals
      rw [show Text.quoteFor text.toList = _ from (List.cons.inj heq).1] at hquote
      rcases hquote with h | h <;> exact absurd h (by decide)

/-- **FIRST LINES** tell records apart, but for what follows on deeper lines. -/
theorem headText_same {r r' : Record} (h : r.WellNamed) (h' : r'.WellNamed)
    (heq : r.headText = r'.headText) : SameHead r r' := by
  cases h with
  | leaf v =>
      cases h' with
      | leaf v' =>
          have heq' : v.listing.toList ++ [] = v'.listing.toList ++ [] :=
            congrArg (· ++ []) heq
          obtain ⟨rfl, -⟩ := Datum.listing_append apart_nil apart_nil heq'
          exact .leaf v
      | @sequence items _ =>
          cases items with
          | nil => exact absurd heq (headText_sequence v).1
          | cons item rest => exact absurd heq (headText_sequence v).2
      | @node kind place fields _ _ =>
          exact absurd heq (headText_node kind (lineEnd_apart fields) v)
  | @sequence items _ =>
      cases items with
      | nil =>
          cases h' with
          | leaf v' => exact absurd heq.symm (headText_sequence v').1
          | @sequence items' _ =>
              cases items' with
              | nil => exact .empty
              | cons item' rest' => exact nomatch heq
          | @node kind place fields _ _ => exact absurd heq (headText_letter kind rfl _ _)
      | cons item rest =>
          cases h' with
          | leaf v' => exact absurd heq.symm (headText_sequence v').2
          | @sequence items' _ =>
              cases items' with
              | nil => exact nomatch heq
              | cons item' rest' => exact .items
          | @node kind place fields _ _ => exact absurd heq (headText_letter kind rfl _ _)
  | @node kind place fields hnames _ =>
      cases h' with
      | leaf v' => exact absurd heq.symm (headText_node kind (lineEnd_apart fields) v')
      | @sequence items' _ =>
          cases items' with
          | nil => exact absurd heq.symm (headText_letter kind rfl _ _)
          | cons item' rest' => exact absurd heq.symm (headText_letter kind rfl _ _)
      | @node kind' place' fields' hnames' _ =>
          obtain ⟨hname, hend⟩ := word_append (kind.not_mem_name rfl)
            (kind'.not_mem_name rfl) (lineEnd_apart fields) (lineEnd_apart fields') heq
          obtain rfl := Kind.name_injective (String.toList_inj.mp hname)
          obtain ⟨hnodup, hplain⟩ := kind.fields_named
          rw [← hnames] at hnodup hplain
          obtain ⟨hsame, rfl⟩ := lineEnd_injective hplain hnodup (hnames.trans hnames'.symm) hend
          exact .node kind place hsame

end Record

end BasicSyntax
