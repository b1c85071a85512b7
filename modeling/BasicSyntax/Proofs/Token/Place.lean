import BasicSyntax.Proofs.Token.Split
import BasicSyntax.Program
import BasicSyntax.Proofs.Text.Lines

/-! # Places — where the tokens of a text stand

    The scanner carries an offset and a position along.  What they mean is said here without the
    scanner: `Text.point above` is the point that a text stands at behind the text `above`, by
    its newlines and by the length of its last line.

    Every token stands at the point behind what is above it (`Token.placed`), tokens further on
    stand at later points (`Token.ordered`), and so does the character at which cutting stops.
    A text that is cut to its end and ends in a separator has that separator for its last token
    (`Token.last_separator`). -/

namespace BasicSyntax

open Text

/-! ## Points -/

namespace Text

/-- The point behind a text: one line more than it has newlines, and one column more than its
    last line has characters. -/
def point (above : List Char) : Position :=
  ⟨above.count '\n' + 1, (lastLine above).length + 1⟩

end Text

namespace Position

/-- A point is before another: on a line further up, or on the same line further left. -/
def Before (p q : Position) : Prop :=
  p.line < q.line ∨ p.line = q.line ∧ p.column < q.column

theorem Before.trans {p q r : Position} (h : p.Before q) (h' : q.Before r) : p.Before r := by
  unfold Before at h h' ⊢
  omega

theorem before_after (p : Position) (c : Char) : p.Before (p.after c) := by
  unfold after
  split
  · exact Or.inl (Nat.lt_succ_self _)
  · exact Or.inr ⟨rfl, Nat.lt_succ_self _⟩

/-- Behind a text that is not empty stands a later point. -/
theorem before_afterAll : ∀ {u : List Char}, u ≠ [] → ∀ p : Position, p.Before (p.afterAll u) := by
  intro u
  induction u with
  | nil => exact fun hne => absurd rfl hne
  | cons c u ih =>
      intro _ p
      by_cases hu : u = []
      · rw [hu]
        exact before_after p c
      · exact (before_after p c).trans (ih hu (p.after c))

/-- Counting a line and a column along a text from its start comes to the point behind it. -/
theorem afterAll_start (u : List Char) : start.afterAll u = point u := by
  -- from the right: both change by one character at the end of the text
  induction u using List.reverseRecOn with
  | nil => rfl
  | append_singleton u c ih =>
      rw [afterAll_append, ih]
      show (point u).after c = point (u ++ [c])
      rw [point, point, lastLine_concat, List.count_append, after]
      cases h : c == '\n' with
      | true =>
          rw [beq_iff_eq.mp h]
          rfl
      | false =>
          have hcount : [c].count '\n' = 0 := by
            rw [List.count_singleton, h]
            rfl
          rw [hcount]
          show Position.mk (u.count '\n' + 1) ((lastLine u).length + 1 + 1) =
            Position.mk (u.count '\n' + 0 + 1) ((lastLine u ++ [c]).length + 1)
          rw [List.length_append]
          rfl

end Position

/-! ## Tokens -/

/-- A token stands between two parts of a text, and is all that its terminal takes there. -/
structure Token.Stands (t : Token) (text above below : List Char) : Prop where
  split : text = above ++ (t.text.toList ++ below)
  writes : t.terminal.Writes t.text.toList
  ends : t.terminal.Ends t.text.toList below

namespace Scan

variable {o : Nat} {p : Position} {text : List Char} {c : Tokens}

theorem placed (h : Scan o p text c) : ∀ t ∈ c.tokens, ∃ above below : List Char,
    t.Stands text above below ∧ t.offset = o + above.length ∧ t.pos = p.afterAll above := by
  induction h with
  | done o p => exact nofun
  | stray _ => exact nofun
  | @filler o p d rest cut _ _ ih =>
      intro t ht
      obtain ⟨above, below, hs, ho, hp⟩ := ih t ht
      refine ⟨d :: above, below, ⟨congrArg (d :: ·) hs.split, hs.writes, hs.ends⟩, ?_, hp⟩
      rw [ho, List.length_cons]
      omega
  | @token o p k u rest cut _ hu he _ ih =>
      intro t ht
      rcases List.mem_cons.mp ht with rfl | ht
      · refine ⟨[], rest, ⟨?_, ?_, ?_⟩, rfl, rfl⟩ <;> rw [String.toList_ofList]
        · rfl
        · exact hu
        · exact he
      · obtain ⟨above, below, hs, ho, hp⟩ := ih t ht
        refine ⟨u ++ above, below, ⟨?_, hs.writes, hs.ends⟩, ?_, ?_⟩
        · rw [List.append_assoc, ← hs.split]
        · rw [ho, List.length_append, Nat.add_assoc]
        · rw [hp, Position.afterAll_append]

theorem stray_placed (h : Scan o p text c) : ∀ s ∈ c.stray, ∃ above below : List Char,
    text = above ++ s.char :: below ∧ s.offset = o + above.length ∧
      s.pos = p.afterAll above := by
  induction h with
  | done o p => exact nofun
  | @stray o p d rest _ =>
      intro s hs
      obtain rfl := Option.some.inj hs
      exact ⟨[], rest, rfl, rfl, rfl⟩
  | @filler o p d rest cut _ _ ih =>
      intro s hs
      obtain ⟨above, below, htext, ho, hp⟩ := ih s hs
      refine ⟨d :: above, below, congrArg (d :: ·) htext, ?_, hp⟩
      rw [ho, List.length_cons]
      omega
  | @token o p k u rest cut _ _ _ _ ih =>
      intro s hs
      obtain ⟨above, below, htext, ho, hp⟩ := ih s hs
      refine ⟨u ++ above, below, ?_, ?_, ?_⟩
      · rw [List.append_assoc, ← htext]
      · rw [ho, List.length_append, Nat.add_assoc]
      · rw [hp, Position.afterAll_append]

/-- The tokens of a text that stands at a point stand there or at later points. -/
theorem not_before (h : Scan o p text c) :
    ∀ t ∈ c.tokens, t.pos = p ∨ p.Before t.pos := by
  intro t ht
  obtain ⟨above, -, -, -, hp⟩ := h.placed t ht
  by_cases ha : above = []
  · rw [hp, ha]
    exact Or.inl rfl
  · rw [hp]
    exact Or.inr (Position.before_afterAll ha p)

/-- Tokens stand at ever later points. -/
theorem ordered (h : Scan o p text c) :
    c.tokens.Pairwise fun t t' => t.pos.Before t'.pos := by
  induction h with
  | done o p => exact .nil
  | stray _ => exact .nil
  | filler _ _ ih => exact ih
  | @token o p k u rest cut _ hu _ hrest ih =>
      refine .cons ?_ ih
      intro t ht
      have hlater := Position.before_afterAll (Terminal.writes_nonempty hu) p
      rcases hrest.not_before t ht with heq | hlt
      · rw [heq]
        exact hlater
      · exact hlater.trans hlt

end Scan

namespace Token

/-- **PLACES**: every token stands at the point behind what is above it. -/
theorem placed {text : List Char} : ∀ t ∈ (Tokens.ofText text).tokens,
    ∃ above below : List Char, t.Stands text above below ∧ t.offset = above.length ∧
      t.pos = point above := by
  intro t ht
  obtain ⟨above, below, hs, ho, hp⟩ := (scan_ofText text).placed t ht
  exact ⟨above, below, hs, ho.trans (Nat.zero_add _), hp.trans (Position.afterAll_start above)⟩

theorem ordered (text : List Char) :
    (Tokens.ofText text).tokens.Pairwise fun t t' => t.pos.Before t'.pos :=
  (scan_ofText text).ordered

end Token

/-- A character at which cutting stops stands at the point behind what is above it. -/
theorem Stray.placed {text : List Char} {s : Stray} (h : (Tokens.ofText text).stray = some s) :
    ∃ above below : List Char, text = above ++ s.char :: below ∧ s.offset = above.length ∧
      s.pos = point above := by
  obtain ⟨above, below, htext, ho, hp⟩ := (scan_ofText text).stray_placed s h
  exact ⟨above, below, htext, ho.trans (Nat.zero_add _), hp.trans (Position.afterAll_start above)⟩

/-! ## The last token -/

/-- Separators belong to no other class. -/
theorem class_separator {c : Char} (h : Program.isSeparator c = true) :
    isWordChar c = false ∧ isFiller c = false ∧ c ≠ '"' := by
  rw [Program.isSeparator, Bool.or_eq_true, beq_iff_eq, beq_iff_eq] at h
  rcases h with rfl | rfl <;> decide

/-- What writes a terminal and ends in a separator is the separator. -/
theorem Terminal.Writes.last_separator {k : Terminal} {u : List Char} {c : Char}
    (hk : k.Writes (u ++ [c])) (hc : Program.isSeparator c = true) : u = [] := by
  have hmem : c ∈ u ++ [c] := List.mem_append_right _ (List.mem_singleton_self c)
  have hclass := class_separator hc
  have hword : ¬ ∀ d ∈ u ++ [c], isWordChar d = true := by
    intro hall
    rw [hall c hmem] at hclass
    exact Bool.noConfusion hclass.1
  rcases hk.cases with h | h | h | h | h | h
  · exact absurd h.word hword
  · exact absurd (reserved_word _ h) hword
  · exact absurd (fun d hd => isWordChar_digit (h.2 d hd)) hword
  · rw [h.2 c hmem] at hclass
    exact Bool.noConfusion hclass.2.1
  · obtain ⟨body, heq, -⟩ := h
    have hlast := congrArg List.getLast? heq
    rw [List.getLast?_concat, ← List.cons_append, List.getLast?_concat] at hlast
    exact absurd (Option.some.inj hlast) hclass.2.2
  · -- the symbols that end in a separator are the separators
    have hsymbols : ∀ w ∈ symbolTexts, (w.getLast?.map Program.isSeparator) = some true →
        w.dropLast = [] := by decide
    have h' := hsymbols _ h
    rw [List.getLast?_concat, List.dropLast_concat] at h'
    exact h' (congrArg some hc)

namespace Scan

/-- No tokens are in no text. -/
theorem tokens_nil {o : Nat} {p : Position} {text : List Char} {c : Tokens} (h : Scan o p text c)
    (htext : text = []) : c.tokens = [] := by
  cases h with
  | done o p => rfl
  | stray _ => rfl
  | filler _ _ => exact nomatch htext
  | token _ hu _ _ =>
      exact absurd (List.append_eq_nil_iff.mp htext).1 (Terminal.writes_nonempty hu)

/-- In a text that is cut to its end and ends in a separator, the separator is the last token. -/
theorem last_separator {o : Nat} {p : Position} {text : List Char} {c : Tokens}
    (h : Scan o p text c) : ∀ {front : List Char} {d : Char}, text = front ++ [d] →
      Program.isSeparator d = true → c.stray = none →
        ∃ t, c.tokens.getLast? = some t ∧ t.offset = o + front.length ∧
          t.pos = p.afterAll front := by
  induction h with
  | done o p =>
      intro front d heq
      exact absurd heq.symm (List.concat_ne_nil _ _)
  | stray _ =>
      intro front d _ _ hs
      exact nomatch hs
  | @filler o p e rest cut he _ ih =>
      intro front d heq hd hs
      cases front with
      | nil =>
          -- filler is no separator, so there is more behind it
          obtain ⟨rfl, -⟩ := List.cons.inj heq
          rw [(class_separator hd).2.1] at he
          exact Bool.noConfusion he
      | cons e' front =>
          obtain ⟨rfl, hrest⟩ := List.cons.inj heq
          obtain ⟨t, hlast, ho, hp⟩ := ih hrest hd hs
          refine ⟨t, hlast, ?_, hp⟩
          rw [ho, List.length_cons]
          omega
  | @token o p k u rest cut _ hu _ hrest ih =>
      intro front d heq hd hs
      rcases List.eq_nil_or_concat rest with hnil | ⟨rest', e, hconcat⟩
      · rw [hnil, List.append_nil] at heq
        rw [heq] at hu
        obtain rfl := hu.last_separator hd
        refine ⟨⟨k, String.ofList u, o, p⟩, ?_, rfl, rfl⟩
        rw [Tokens.prepend, hrest.tokens_nil hnil]
        rfl
      · rw [List.concat_eq_append] at hconcat
        rw [hconcat, ← List.append_assoc] at heq
        obtain ⟨hfront, hlast⟩ := List.append_inj' heq rfl
        obtain ⟨t, ht, ho, hp⟩ := ih (hconcat.trans (by rw [(List.cons.inj hlast).1])) hd hs
        refine ⟨t, ?_, ?_, ?_⟩
        · rw [Tokens.prepend, List.getLast?_append, ht]
          rfl
        · rw [ho, ← hfront, List.length_append, Nat.add_assoc]
        · rw [hp, ← hfront, Position.afterAll_append]

end Scan

/-- **THE LAST TOKEN** of a text that is cut to its end and ends in a separator stands where the
    last character does. -/
theorem Token.last_separator {front : List Char} {d : Char} (hd : Program.isSeparator d = true)
    (hs : (Tokens.ofText (front ++ [d])).stray = none) :
    ∃ t, (Tokens.ofText (front ++ [d])).tokens.getLast? = some t ∧ t.offset = front.length ∧
      t.pos = point front := by
  obtain ⟨t, ht, ho, hp⟩ := (scan_ofText (front ++ [d])).last_separator rfl hd hs
  exact ⟨t, ht, ho.trans (Nat.zero_add _), hp.trans (Position.afterAll_start front)⟩

end BasicSyntax
