import BasicSyntax.Program
import BasicSyntax.Proofs.Token.Scan
import Mathlib.Data.List.Forall2

/-! # Pieces — what a written text reads as, wherever it stands

    A program is written piece by piece, and a piece is read before it is known what stands in
    front of it or behind.  `Reads follows text holds` says that wherever `text` stands, and
    whatever stands behind it that `follows` allows, it is cut into tokens of which `holds` is
    true, none of them a number that is too long.

    Pieces are put together by `Reads.append`: what begins the second must be allowed behind
    the first.  Two conditions on what follows are enough.  `Free` allows anything; it is for
    pieces that end in a blank, a newline or an opening bracket.  `Clear` asks for a blank, a
    newline or a closing bracket, behind which no name, number or operator goes on. -/

namespace BasicSyntax

open Text

/-- If a token is a number, it is one that is not too long. -/
def Token.Short (t : Token) : Prop := t.terminal = .number → t.text.length ≤ digitLimit

/-- Anything may follow. -/
def Free (_ : List Char) : Prop := True

/-- What follows begins with a blank, a newline or a closing bracket. -/
def Clear (rest : List Char) : Prop :=
  ∃ c more, rest = c :: more ∧ c ∈ [' ', '\n', ')']

/-- A text reads as tokens, wherever it stands. -/
def Reads (follows : List Char → Prop) (text : String) (holds : List Token → Prop) : Prop :=
  ∀ (o : Nat) (p : Position) (rest : List Char) (cut : Tokens), follows rest →
    Scan (o + text.toList.length) (p.afterAll text.toList) rest cut →
      ∃ ts, holds ts ∧ (∀ t ∈ ts, t.Short) ∧ Scan o p (text.toList ++ rest) (cut.prepend ts)

/-- One token, of a sort and a text. -/
def Single (k : Terminal) (text : String) (ts : List Token) : Prop :=
  ∃ t : Token, ts = [t] ∧ t.terminal = k ∧ t.text = text

/-- Tokens of one description, and then tokens of another. -/
def Followed (first second : List Token → Prop) (ts : List Token) : Prop :=
  ∃ us vs, ts = us ++ vs ∧ first us ∧ second vs

/-- Tokens of several descriptions, one behind the other. -/
def Each : List (List Token → Prop) → List Token → Prop
  | [] => (· = [])
  | first :: rest => Followed first (Each rest)

/-- The terminals that are a bracket. -/
def bracketTerminals : List Terminal :=
  [.openBrace, .openParen, .openSquare, .closeBrace, .closeParen, .closeSquare]

/-- No terminal but filler goes on in what is clear. -/
theorem Terminal.ends_clear {k : Terminal} (hk : k ≠ .filler) (u : List Char) {rest : List Char}
    (h : Clear rest) : k.Ends u rest := by
  obtain ⟨c, more, rfl, hc⟩ := h
  simp only [List.mem_cons, List.not_mem_nil, or_false] at hc
  rcases hc with rfl | rfl | rfl
  all_goals
    cases k
    case filler => exact absurd rfl hk
    all_goals first | exact trivial | exact fun _ => rfl | exact rfl

/-- The one spelling of a terminal writes it, and is neither filler nor a number. -/
theorem Terminal.spelling_writes {k : Terminal} {u : String} (h : k.spelling? = some u) :
    k.Writes u.toList ∧ k ≠ .filler ∧ k ≠ .number := by
  refine ⟨?_, ?_, ?_⟩
  · cases k
    all_goals
      first
      | exact congrArg (Option.map String.toList) h
      | exact nomatch (show (none : Option String) = some u from h)
  · rintro rfl
    exact nomatch (show (none : Option String) = some u from h)
  · rintro rfl
    exact nomatch (show (none : Option String) = some u from h)

theorem Tokens.prepend_prepend (c : Tokens) (us vs : List Token) :
    (c.prepend vs).prepend us = c.prepend (us ++ vs) := by
  rw [prepend, prepend, prepend, List.append_assoc]

namespace Reads

variable {follows follows' : List Char → Prop} {x y : String} {P Q : List Token → Prop}

/-- What is known of the tokens may be weakened. -/
theorem imp (h : Reads follows x P) (hPQ : ∀ ts, P ts → Q ts) : Reads follows x Q := by
  intro o p rest cut hf hc
  obtain ⟨ts, hts, hshort, hscan⟩ := h o p rest cut hf hc
  exact ⟨ts, hPQ ts hts, hshort, hscan⟩

/-- Less may be allowed to follow. -/
theorem restrict (h : Reads follows x P) (hf : ∀ rest, follows' rest → follows rest) :
    Reads follows' x P := by
  intro o p rest cut hf' hc
  exact h o p rest cut (hf rest hf') hc

/-- **APPENDING**: two pieces one behind the other read as what they read as. -/
theorem append (hx : Reads follows x P) (hy : Reads follows' y Q)
    (hf : ∀ rest, follows' rest → follows (y.toList ++ rest)) :
    Reads follows' (x ++ y) (Followed P Q) := by
  intro o p rest cut hrest hc
  rw [String.toList_append, List.length_append, Position.afterAll_append, ← Nat.add_assoc] at hc
  -- from the right: the first piece is read in front of what the second was read as
  obtain ⟨vs, hvs, hshort, hscan⟩ := hy _ _ rest cut hrest hc
  obtain ⟨us, hus, hshort', hscan'⟩ := hx o p _ _ (hf rest hrest) hscan
  refine ⟨us ++ vs, ⟨us, vs, rfl, hus, hvs⟩, List.forall_mem_append.mpr ⟨hshort', hshort⟩, ?_⟩
  rw [String.toList_append, List.append_assoc, ← Tokens.prepend_prepend]
  exact hscan'

/-- Behind a piece that allows anything, any piece may stand. -/
theorem free (hx : Reads Free x P) (hy : Reads follows y Q) :
    Reads follows (x ++ y) (Followed P Q) :=
  hx.append hy fun _ _ => trivial

/-- What allows anything allows what is clear. -/
theorem clear (h : Reads Free x P) : Reads Clear x P := h.restrict fun _ _ => trivial

/-! ## Single pieces -/

/-- A text that writes a terminal reads as a token of it. -/
theorem token {k : Terminal} {u : String} (hk : k ≠ .filler) (hu : k.Writes u.toList)
    (hshort : k = .number → u.length ≤ digitLimit) :
    Reads (k.Ends u.toList) u (Single k u) := by
  intro o p rest cut he hc
  refine ⟨[⟨k, String.ofList u.toList, o, p⟩],
    ⟨⟨k, String.ofList u.toList, o, p⟩, rfl, rfl, String.ofList_toList⟩, ?_, .token hk hu he hc⟩
  refine List.forall_mem_singleton.mpr ?_
  intro hnumber
  rw [String.ofList_toList]
  exact hshort hnumber

/-- A text that writes a terminal reads as a token of it before anything clear. -/
theorem lexeme {k : Terminal} {u : String} (hk : k ≠ .filler) (hu : k.Writes u.toList)
    (hshort : k = .number → u.length ≤ digitLimit) : Reads Clear u (Single k u) :=
  (token hk hu hshort).restrict fun _ h => Terminal.ends_clear hk _ h

/-- Filler reads as nothing. -/
theorem filler {u : String} (hu : ∀ c ∈ u.toList, isFiller c = true) :
    Reads Free u (· = []) := by
  intro o p rest cut _ hc
  exact ⟨[], rfl, nofun, Scan.fillers hu hc⟩

/-- A blank reads as nothing. -/
theorem blank : Reads Free " " (· = []) := filler (List.forall_mem_singleton.mpr rfl)

/-- A newline reads as a separator. -/
theorem newline : Reads Free "\n" (Single .separator "\n") :=
  (token (k := .separator) (u := "\n") nofun (show ['\n'] ∈ separatorTexts by decide)
    nofun).restrict fun _ _ => trivial

/-- A fixed spelling reads as a token of its terminal. -/
theorem spelling {k : Terminal} {u : String} (h : k.spelling? = some u) :
    Reads Clear u (Single k u) := by
  obtain ⟨hw, hf, hn⟩ := Terminal.spelling_writes h
  exact lexeme hf hw fun hk => absurd hk hn

/-- A bracket reads as a token whatever stands behind it. -/
theorem bracket {k : Terminal} {u : String} (hk : k ∈ bracketTerminals)
    (h : k.spelling? = some u) : Reads Free u (Single k u) := by
  obtain ⟨hw, hf, hn⟩ := Terminal.spelling_writes h
  refine (token hf hw fun hk => absurd hk hn).restrict fun rest _ => ?_
  simp only [bracketTerminals, List.mem_cons, List.not_mem_nil, or_false] at hk
  rcases hk with rfl | rfl | rfl | rfl | rfl | rfl <;> exact trivial

/-! ## Pieces beside blanks -/

/-- Filler may stand before a piece. -/
theorem behind_filler (hx : Reads Free x (· = [])) (hy : Reads follows y Q) :
    Reads follows (x ++ y) Q := by
  refine (hx.free hy).imp ?_
  rintro ts ⟨us, vs, rfl, rfl, hvs⟩
  exact hvs

/-- A blank may stand behind a piece. -/
theorem before_blank (hx : Reads Clear x P) : Reads Free (x ++ " ") P := by
  refine (hx.append blank fun rest _ => ⟨' ', rest, rfl, by decide⟩).imp ?_
  rintro ts ⟨us, vs, rfl, hus, rfl⟩
  rw [List.append_nil]
  exact hus

/-- Two pieces with a blank between them. -/
theorem spaced (hx : Reads Clear x P) (hy : Reads follows y Q) :
    Reads follows (x ++ " " ++ y) (Followed P Q) := hx.before_blank.free hy

/-- Pieces with a blank between any two. -/
theorem intercalate : ∀ {texts : List String} {Ps : List (List Token → Prop)},
    List.Forall₂ (Reads Clear) texts Ps → texts ≠ [] →
      Reads Clear (" ".intercalate texts) (Each Ps) := by
  intro texts Ps h
  induction h with
  | nil => exact fun hne => absurd rfl hne
  | @cons text P texts Ps hfirst hrest ih =>
      intro _
      cases hrest with
      | nil =>
          rw [String.intercalate_singleton]
          exact hfirst.imp fun ts hts => ⟨ts, [], (List.append_nil ts).symm, hts, rfl⟩
      | cons hnext hrest =>
          rw [String.intercalate_cons_cons]
          exact hfirst.spaced (ih (List.cons_ne_nil _ _))

/-- A fixed spelling may stand behind a piece, between blanks. -/
theorem before_spelling (hx : Reads Clear x P) {k : Terminal} {u : String}
    (h : k.spelling? = some u) : Reads Free (x ++ (" " ++ u ++ " ")) (Followed P (Single k u)) := by
  refine hx.append (behind_filler blank (spelling h)).before_blank fun rest _ => ?_
  rw [String.toList_append, String.toList_append]
  exact ⟨' ', _, rfl, by decide⟩

/-- A piece in round brackets. -/
theorem parens (hx : Reads Clear x P) : Reads Free ("(" ++ x ++ ")")
    (Followed (Followed (Single .openParen "(") P) (Single .closeParen ")")) := by
  have hopen : Reads Clear ("(" ++ x) (Followed (Single .openParen "(") P) :=
    (bracket (by decide) rfl).free hx
  exact hopen.append (bracket (by decide) rfl) fun rest _ => ⟨')', rest, rfl, by decide⟩

/-! ## Whole texts -/

/-- The tokens of a text that is one piece. -/
theorem whole (hx : Reads Free x P) : ∃ ts, P ts ∧ (∀ t ∈ ts, t.Short) ∧
    Tokens.ofText x.toList = ⟨ts, none⟩ := by
  obtain ⟨ts, hts, hshort, hscan⟩ := hx 0 .start [] ⟨[], none⟩ trivial (.done _ _)
  refine ⟨ts, hts, hshort, ?_⟩
  rw [List.append_nil] at hscan
  have hcut := (scan_iff ..).mp hscan
  rw [Tokens.prepend, List.append_nil] at hcut
  exact hcut

end Reads

/-! ## The ends of a text -/

/-- A text begins with something other than the sign that would make an arrow of a minus before
    it. -/
def Opens (text : String) : Prop := ∃ c ∈ text.toList.head?, c ≠ '>'

/-- A text ends in something other than a separator. -/
def Closes (text : String) : Prop :=
  ∃ c ∈ text.toList.getLast?, Program.isSeparator c = false

/-- A text begins and ends so. -/
structure Edged (text : String) : Prop where
  opens : Opens text
  closes : Closes text

theorem Opens.append {x : String} (h : Opens x) (y : String) : Opens (x ++ y) := by
  obtain ⟨c, hc, hne⟩ := h
  refine ⟨c, ?_, hne⟩
  rw [String.toList_append, List.head?_append, Option.mem_def.mp hc]
  exact rfl

theorem Closes.append {y : String} (h : Closes y) (x : String) : Closes (x ++ y) := by
  obtain ⟨c, hc, hsep⟩ := h
  refine ⟨c, ?_, hsep⟩
  rw [String.toList_append, List.getLast?_append, Option.mem_def.mp hc]
  exact rfl

/-- Behind a minus, what begins so does not make an arrow of it. -/
theorem Opens.ends_minus {text : String} (h : Opens text) (rest : List Char) :
    Terminal.minus.Ends ['-'] (text.toList ++ rest) := by
  obtain ⟨c, hc, hne⟩ := h
  obtain ⟨more, hmore⟩ := List.head?_eq_some_iff.mp hc
  rw [hmore]
  exact beq_eq_false_iff_ne.mpr hne

/-- A text of word characters is edged. -/
theorem Edged.word {text : String} (hne : text.toList ≠ [])
    (h : ∀ c ∈ text.toList, isWordChar c = true) : Edged text := by
  have hword : ∀ d : Char, isWordChar d = false → ∀ c ∈ text.toList, c ≠ d := by
    rintro d hd c hc rfl
    exact Bool.noConfusion ((h c hc).symm.trans hd)
  refine ⟨⟨text.toList.head hne, List.head?_eq_some_head hne, ?_⟩,
    ⟨text.toList.getLast hne, List.getLast?_eq_some_getLast hne, ?_⟩⟩
  · exact hword '>' rfl _ (List.head_mem hne)
  · rw [Program.isSeparator, Bool.or_eq_false_iff, beq_eq_false_iff_ne, beq_eq_false_iff_ne]
    exact ⟨hword ';' rfl _ (List.getLast_mem hne), hword '\n' rfl _ (List.getLast_mem hne)⟩

/-- Texts with a blank between any two. -/
theorem Edged.intercalate : ∀ {texts : List String}, texts ≠ [] → (∀ text ∈ texts, Edged text) →
    Edged (" ".intercalate texts) := by
  intro texts
  induction texts with
  | nil => exact fun hne => absurd rfl hne
  | cons text texts ih =>
      intro _ hall
      obtain ⟨hhead, htail⟩ := List.forall_mem_cons.mp hall
      cases texts with
      | nil =>
          rw [String.intercalate_singleton]
          exact hhead
      | cons next texts =>
          rw [String.intercalate_cons_cons]
          exact ⟨(hhead.opens.append _).append _,
            (ih (List.cons_ne_nil _ _) htail).closes.append _⟩

end BasicSyntax
