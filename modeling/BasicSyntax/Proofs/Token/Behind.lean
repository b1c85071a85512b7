import BasicSyntax.Proofs.Token.Place

/-! # Behind lines — the tokens of a text that follows complete lines

    A text that follows another has the same tokens as by itself, moved by the extent of what is
    above (`Scan.behind`), once the scanner comes to its first character with nothing pending.
    Behind a separator it does: no token goes on over one (`Scan.append`).  So the tokens of
    lines with a text behind them are those of the lines and, moved, those of the text
    (`Tokens.ofText_append`). -/

namespace BasicSyntax

open Text

/-! ## Moving points -/

/-- Where a point of a text is when lines are put above the text: the last of these is continued
    by its first. -/
def Position.behind (above : List Char) (p : Position) : Position :=
  if p.line = 1 then ⟨above.count '\n' + 1, (lastLine above).length + p.column⟩
  else ⟨above.count '\n' + p.line, p.column⟩

/-- A token of a text when lines are put above it. -/
def Token.behind (above : List Char) (t : Token) : Token :=
  ⟨t.terminal, t.text, above.length + t.offset, t.pos.behind above⟩

/-- A character at which cutting stops when lines are put above it. -/
def Stray.behind (above : List Char) (s : Stray) : Stray :=
  ⟨s.char, above.length + s.offset, s.pos.behind above⟩

/-- The tokens of a text when lines are put above it. -/
def Tokens.behind (above : List Char) (c : Tokens) : Tokens :=
  ⟨c.tokens.map (Token.behind above), c.stray.map (Stray.behind above)⟩

namespace Position

theorem behind_start (above : List Char) : start.behind above = point above := rfl

/-- Points move along with the character before them. -/
theorem behind_after (above : List Char) {p : Position} (hp : 1 ≤ p.line) (c : Char) :
    (p.after c).behind above = (p.behind above).after c := by
  unfold after
  cases c == '\n' with
  | true =>
      have hnext : p.line + 1 ≠ 1 := by omega
      rw [if_pos rfl, if_pos rfl, behind, if_neg hnext, behind]
      split
      · rename_i hone
        rw [hone]
        rfl
      · rfl
  | false =>
      rw [if_neg Bool.false_ne_true, if_neg Bool.false_ne_true, behind, behind]
      split <;> rfl

theorem after_line {p : Position} (hp : 1 ≤ p.line) (c : Char) : 1 ≤ (p.after c).line := by
  unfold after
  split
  · exact Nat.le_add_left 1 _
  · exact hp

theorem afterAll_line : ∀ (u : List Char) {p : Position}, 1 ≤ p.line →
    1 ≤ (p.afterAll u).line := by
  intro u
  induction u with
  | nil => exact fun hp => hp
  | cons c u ih => exact fun hp => ih (after_line hp c)

theorem behind_afterAll (above : List Char) : ∀ (u : List Char) {p : Position}, 1 ≤ p.line →
    (p.afterAll u).behind above = (p.behind above).afterAll u := by
  intro u
  induction u with
  | nil => exact fun _ => rfl
  | cons c u ih =>
      intro p hp
      show ((p.after c).afterAll u).behind above = ((p.behind above).after c).afterAll u
      rw [ih (after_line hp c), behind_after above hp]

end Position

/-! ## Cutting behind lines -/

/-- A text is cut the same wherever it stands. -/
theorem Scan.behind (above : List Char) {o : Nat} {p : Position} {text : List Char} {c : Tokens}
    (h : Scan o p text c) : 1 ≤ p.line →
      Scan (above.length + o) (p.behind above) text (c.behind above) := by
  induction h with
  | done o p => exact fun _ => .done _ _
  | filler hd _ ih =>
      intro hp
      have h' := ih (Position.after_line hp _)
      rw [Position.behind_after above hp] at h'
      exact .filler hd h'
  | @token o p k u rest cut hk hu he _ ih =>
      intro hp
      have h' := ih (Position.afterAll_line u hp)
      rw [Position.behind_afterAll above u hp, ← Nat.add_assoc] at h'
      exact .token hk hu he h'
  | stray hf => exact fun _ => .stray hf

/-- A separator by itself is nothing but a separator. -/
theorem Terminal.Writes.separator {k : Terminal} {c : Char} (h : k.Writes [c])
    (hc : Program.isSeparator c = true) : k = .separator := by
  have hclass := class_separator hc
  have hmem : c ∈ [c] := List.mem_singleton_self c
  rw [Program.isSeparator, Bool.or_eq_true, beq_iff_eq, beq_iff_eq] at hc
  cases k with
  | separator => rfl
  | identifier =>
      have hword := h.word c hmem
      rw [hclass.1] at hword
      exact Bool.noConfusion hword
  | number =>
      have hword := isWordChar_digit (h.2 c hmem)
      rw [hclass.1] at hword
      exact Bool.noConfusion hword
  | filler =>
      have hfiller := h.2 c hmem
      rw [hclass.2.1] at hfiller
      exact Bool.noConfusion hfiller
  | string =>
      obtain ⟨body, heq, -⟩ := h
      exact absurd (List.cons.inj heq).1 hclass.2.2
  | operator =>
      have hno : [';'] ∉ operatorTexts ∧ ['\n'] ∉ operatorTexts := by decide
      rcases hc with rfl | rfl
      · exact absurd h hno.1
      · exact absurd h hno.2
  | endOfInput => exact absurd h (Option.some_ne_none [c]).symm
  | _ => rcases hc with rfl | rfl <;> exact absurd (Option.some.inj h) (by decide)

/-- Behind lines that are cut to their end the scanner begins anew. -/
theorem Scan.append {o : Nat} {p : Position} {lines : List Char} {c : Tokens}
    (h : Scan o p lines c) : (∀ d ∈ lines.getLast?, Program.isSeparator d = true) →
      c.stray = none → ∀ {text : List Char} {cut : Tokens},
        Scan (o + lines.length) (p.afterAll lines) text cut →
          Scan o p (lines ++ text) (cut.prepend c.tokens) := by
  induction h with
  | done o p => exact fun _ _ _ _ htext => htext
  | stray _ => exact fun _ hs => nomatch hs
  | @filler o p d rest c hd _ ih =>
      intro hlast hs text cut htext
      have hlast' : ∀ e ∈ rest.getLast?, Program.isSeparator e = true := by
        cases rest with
        | nil => exact nofun
        | cons e rest =>
            rw [List.getLast?_cons_cons] at hlast
            exact hlast
      refine .filler hd (ih hlast' hs ?_)
      rw [List.length_cons] at htext
      rw [Nat.add_assoc, Nat.add_comm 1]
      exact htext
  | @token o p k u rest c hk hu he _ ih =>
      intro hlast hs text cut htext
      rw [List.length_append, Position.afterAll_append, ← Nat.add_assoc] at htext
      rw [List.append_assoc]
      have hlast' : ∀ e ∈ rest.getLast?, Program.isSeparator e = true := by
        intro e he
        refine hlast e ?_
        rw [List.getLast?_append, Option.mem_def.mp he]
        rfl
      have he' : k.Ends u (rest ++ text) := by
        cases rest with
        | cons e rest => exact Terminal.ends_head _ he
        | nil =>
            -- the last token is the separator, which ends wherever it stands
            rw [List.append_nil] at hlast
            obtain ⟨w, e, hw⟩ :=
              (List.eq_nil_or_concat u).resolve_left (Terminal.writes_nonempty hu)
            rw [List.concat_eq_append] at hw
            subst hw
            have hsep := hlast e List.getLast?_concat
            obtain rfl := hu.last_separator hsep
            obtain rfl := hu.separator hsep
            trivial
      exact .token hk hu he' (ih hlast' hs htext)

/-- **BEHIND LINES**: the tokens of a text behind complete lines are those of the lines, and
    those of the text moved by the extent of the lines. -/
theorem Tokens.ofText_append {lines : List Char}
    (hlast : ∀ d ∈ lines.getLast?, Program.isSeparator d = true)
    (hs : (ofText lines).stray = none) (text : List Char) :
    ofText (lines ++ text) = ((ofText text).behind lines).prepend (ofText lines).tokens := by
  have hbehind := (scan_ofText text).behind lines (Nat.le_refl 1)
  rw [Nat.add_zero, Position.behind_start, ← Position.afterAll_start] at hbehind
  refine (scan_iff ..).mp ((scan_ofText lines).append hlast hs ?_)
  rw [Nat.zero_add]
  exact hbehind

end BasicSyntax
