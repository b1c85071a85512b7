import BasicSyntax.Proofs.Source.Piece
import BasicSyntax.Proofs.Text.Lines
import BasicSyntax.Proofs.Text.Literal
import BasicSyntax.Proofs.Token.Behind

/-! # Newlines — the tokens of a text whose lines end in two ways

    In a text whose carriage returns all stand before a newline (`Paired`), unifying newlines
    drops the carriage returns and nothing else.  They are filler, so the scanner drops them too,
    and it comes to the newline one column further on than without them.  Behind the newline the
    column is one again.  So the two texts have the same tokens but for the columns of separators,
    and they are cut up to the same character (`Scan.unified`).

    A carriage return is never inside a token: only a string could hold one, and no string holds
    the newline behind it. -/

namespace BasicSyntax

open Text

/-! ## Texts whose carriage returns are paired -/

/-- Every carriage return of a text stands before a newline. -/
inductive Paired : List Char → Prop
  | nil : Paired []
  | pair {rest : List Char} : Paired rest → Paired ('\r' :: '\n' :: rest)
  | other {c : Char} {rest : List Char} : c ≠ '\r' → Paired rest → Paired (c :: rest)

namespace Text

theorem unifyNewlines_cons {c : Char} (hc : c ≠ '\r') (rest : List Char) :
    unifyNewlines (c :: rest) = c :: unifyNewlines rest := by
  rw [unifyNewlines, beq_eq_false_iff_ne.mpr hc]
  · rfl
  · exact fun _ heq _ => hc heq

/-- A carriage return leaves a newline behind, with the one after it or alone. -/
theorem unifyNewlines_return (rest : List Char) :
    ∃ more, unifyNewlines ('\r' :: rest) = '\n' :: more := by
  unfold unifyNewlines
  split
  · exact ⟨_, rfl⟩
  · next heq =>
      rw [← (List.cons.inj heq).1]
      exact ⟨_, rfl⟩
  · next heq => exact nomatch heq

theorem unifyNewlines_append {u : List Char} (h : '\r' ∉ u) (rest : List Char) :
    unifyNewlines (u ++ rest) = u ++ unifyNewlines rest := by
  induction u with
  | nil => rfl
  | cons c u ih =>
      have hc := List.ne_of_not_mem_cons h
      rw [List.cons_append, unifyNewlines_cons (Ne.symm hc), ih (List.not_mem_of_not_mem_cons h)]
      rfl

/-- What stands in the unified text before any newline stands in the text. -/
theorem unifyNewlines_split {w : List Char} (hw : '\n' ∉ w) :
    ∀ {text more : List Char}, unifyNewlines text = w ++ more →
      ∃ rest, text = w ++ rest := by
  induction w with
  | nil => exact fun {text _} _ => ⟨text, rfl⟩
  | cons c w ih =>
      intro text more heq
      have hc := List.ne_of_not_mem_cons hw
      cases text with
      | nil => exact nomatch heq
      | cons d text =>
          by_cases hd : d = '\r'
          · obtain ⟨more', hreturn⟩ := unifyNewlines_return text
            rw [hd, hreturn] at heq
            exact absurd (List.cons.inj heq).1.symm (Ne.symm hc)
          · rw [unifyNewlines_cons hd] at heq
            obtain ⟨rfl, heq'⟩ := List.cons.inj heq
            obtain ⟨rest, rfl⟩ := ih (List.not_mem_of_not_mem_cons hw) heq'
            exact ⟨rest, rfl⟩

end Text

namespace Paired

theorem tail {c : Char} {rest : List Char} (h : Paired (c :: rest)) (hc : c ≠ '\r') :
    Paired rest := by
  cases h with
  | pair _ => exact absurd rfl hc
  | other _ h => exact h

theorem newline {rest : List Char} (h : Paired ('\r' :: rest)) :
    ∃ more, rest = '\n' :: more ∧ Paired rest := by
  cases h with
  | pair h => exact ⟨_, rfl, .other (by decide) h⟩
  | other hc _ => exact absurd rfl hc

/-- Behind a part without carriage returns they are paired as before. -/
theorem behind {u rest : List Char} (hu : '\r' ∉ u) (h : Paired (u ++ rest)) : Paired rest := by
  induction u with
  | nil => exact h
  | cons c u ih =>
      have hc := List.ne_of_not_mem_cons hu
      exact ih (List.not_mem_of_not_mem_cons hu) (tail h (Ne.symm hc))

/-- A part of a text with a carriage return has the newline behind it, if it goes on there. -/
theorem newline_mem {u rest : List Char} (h : Paired (u ++ rest)) (hmem : '\r' ∈ u)
    (hlast : '\r' ∉ u.getLast?) : '\n' ∈ u := by
  induction u with
  | nil => exact nomatch hmem
  | cons c u ih =>
      cases u with
      | nil =>
          rw [List.mem_singleton.mp hmem] at hlast
          exact absurd rfl hlast
      | cons d u =>
          rw [List.getLast?_cons_cons] at hlast
          by_cases hc : c = '\r'
          · rw [hc] at h
            obtain ⟨more, heq, -⟩ := newline h
            rw [(List.cons.inj heq).1]
            exact List.mem_cons_of_mem _ List.mem_cons_self
          · have hmem' := (List.mem_cons.mp hmem).resolve_left (Ne.symm hc)
            exact List.mem_cons_of_mem _ (ih (tail h hc) hmem' hlast)

/-- The newline that completes a text stays what it is. -/
theorem unify_concat {text : List Char} (h : Paired text) :
    unifyNewlines (text ++ ['\n']) = unifyNewlines text ++ ['\n'] := by
  induction h with
  | nil => rfl
  | pair _ ih => exact congrArg ('\n' :: ·) ih
  | other hc _ ih =>
      rw [List.cons_append, unifyNewlines_cons hc, unifyNewlines_cons hc, ih]
      rfl

/-- No text ends in a carriage return, so the last character stays. -/
theorem unify_last {text : List Char} (h : Paired text) :
    (unifyNewlines text).getLast? = text.getLast? := by
  induction h with
  | nil => rfl
  | @pair rest _ ih =>
      rw [unifyNewlines, List.getLast?_cons, ih, List.getLast?_cons, List.getLast?_cons]
      rfl
  | other hc _ ih => rw [unifyNewlines_cons hc, List.getLast?_cons, ih, List.getLast?_cons]

theorem concat {text : List Char} (h : Paired text) : Paired (text ++ ['\n']) := by
  induction h with
  | nil => exact .other (by decide) .nil
  | pair _ ih => exact .pair ih
  | other hc _ ih => exact .other hc ih

end Paired

/-! ## Newlines and carriage returns in a lexeme -/

/-- What writes a terminal and has a newline is the newline. -/
theorem Terminal.Writes.newline {k : Terminal} {u : List Char} (h : k.Writes u)
    (hmem : '\n' ∈ u) : u = ['\n'] := by
  have hword : ¬ ∀ d ∈ u, isWordChar d = true := fun hall => nomatch hall '\n' hmem
  rcases h.cases with h | h | h | h | h | h
  · exact absurd h.word hword
  · exact absurd (reserved_word _ h) hword
  · exact absurd (fun d hd => isWordChar_digit (h.2 d hd)) hword
  · exact nomatch h.2 '\n' hmem
  · obtain ⟨body, rfl, hb⟩ := h
    have hbody := literalBody_line body hb
    simp [hbody] at hmem
  · have hsymbols : ∀ w ∈ symbolTexts, '\n' ∈ w → w = ['\n'] := by decide
    exact hsymbols u h hmem

/-- A carriage return before a newline is in no token. -/
theorem Terminal.Writes.clean {k : Terminal} {u rest : List Char} (hk : k ≠ .filler)
    (h : k.Writes u) (hp : Paired (u ++ rest)) : '\r' ∉ u := by
  intro hmem
  cases k with
  | filler => exact hk rfl
  | identifier => exact nomatch h.word '\r' hmem
  | number => exact nomatch h.2 '\r' hmem
  | operator => exact (by decide : ∀ w ∈ operatorTexts, '\r' ∉ w) u h hmem
  | separator => exact (by decide : ∀ w ∈ separatorTexts, '\r' ∉ w) u h hmem
  | endOfInput => exact nomatch h
  | string =>
      have hlast : '\r' ∉ u.getLast? := by
        obtain ⟨body, rfl, -⟩ := h
        rw [← List.cons_append, List.getLast?_concat]
        exact fun heq => nomatch Option.some.inj heq
      have hline := Terminal.Writes.newline (k := .string) h (hp.newline_mem hmem hlast)
      rw [hline] at hmem
      exact nomatch List.mem_singleton.mp hmem
  | _ =>
      obtain rfl := Option.some.inj h
      exact absurd hmem (by decide)

/-! ## Cutting the two texts -/

/-- A token in a text with unified newlines: only a separator may have moved, on its line. -/
structure Token.Unified (t t' : Token) : Prop where
  terminal : t'.terminal = t.terminal
  text : t'.text = t.text
  line : t'.pos.line = t.pos.line
  pos : t.terminal ≠ .separator → t'.pos = t.pos

/-- A character at which cutting stops, and its point. -/
def Stray.shown (s : Stray) : Char × Position := (s.char, s.pos)

/-- Tokens of a text, and those with unified newlines. -/
structure Tokens.Unified (c c' : Tokens) : Prop where
  tokens : List.Forall₂ Token.Unified c.tokens c'.tokens
  stray : c'.stray.map Stray.shown = c.stray.map Stray.shown

/-- A newline leads to the next line from every column. -/
theorem Position.after_newline {p p' : Position} (h : p'.line = p.line) :
    p'.after '\n' = p.after '\n' := by
  show (⟨p'.line + 1, 1⟩ : Position) = ⟨p.line + 1, 1⟩
  rw [h]

/-- Two points that may differ before a newline, in the column, are one behind any token, and
    before any but a separator. -/
theorem Terminal.Writes.point_unified {k : Terminal} {u rest : List Char} (h : k.Writes u)
    {p p' : Position} (hline : p'.line = p.line)
    (hpos : (u ++ rest).head? ≠ some '\n' → p' = p) :
    (k ≠ .separator → p' = p) ∧ p'.afterAll u = p.afterAll u := by
  by_cases hnewline : '\n' ∈ u
  · have hu := h.newline hnewline
    rw [hu] at h ⊢
    exact ⟨fun hno => absurd (h.separator rfl) hno, Position.after_newline hline⟩
  · have hhead : (u ++ rest).head? ≠ some '\n' := by
      cases u with
      | nil => exact absurd rfl (Terminal.writes_nonempty h)
      | cons e u => exact fun heq => hnewline (Option.some.inj heq ▸ List.mem_cons_self)
    rw [hpos hhead]
    exact ⟨fun _ => rfl, rfl⟩

/-- What ends a terminal ends it with unified newlines too. -/
theorem Terminal.ends_unified {k : Terminal} (hk : k ≠ .filler) {u rest : List Char}
    (h : k.Ends u rest) : k.Ends u (unifyNewlines rest) := by
  cases rest with
  | nil => exact h
  | cons c rest =>
      by_cases hc : c = '\r'
      · obtain ⟨more, heq⟩ := unifyNewlines_return rest
        rw [hc, heq]
        exact Terminal.ends_clear hk u ⟨'\n', more, rfl, by decide⟩
      · rw [unifyNewlines_cons hc]
        exact Terminal.ends_head _ h

/-- Where no terminal stands none stands with unified newlines. -/
theorem first?_unified {c : Char} {rest : List Char} (h : Terminal.first? (c :: rest) = none) :
    c ≠ '\r' ∧ Terminal.first? (c :: unifyNewlines rest) = none := by
  have hsingle : ∀ {k : Terminal}, ¬ k.Writes [c] := fun hw => hw.first? rest h
  have hc : c ≠ '\r' := by
    rintro rfl
    exact hsingle (k := .filler) ⟨List.cons_ne_nil _ _, List.forall_mem_singleton.mpr rfl⟩
  refine ⟨hc, ?_⟩
  cases hf : Terminal.first? (c :: unifyNewlines rest) with
  | none => rfl
  | some found =>
      obtain ⟨k, n⟩ := found
      obtain ⟨u, more, heq, -, hu, -⟩ := Terminal.first?_writes hf
      by_cases hline : '\n' ∈ u
      · rw [hu.newline hline] at heq hu
        rw [← (List.cons.inj heq).1] at hu
        exact absurd hu hsingle
      · rw [← unifyNewlines_cons hc] at heq
        obtain ⟨tail, hsame⟩ := unifyNewlines_split hline heq
        rw [hsame] at h
        exact absurd h (hu.first? tail)

/-- **TWO WAYS TO END LINES**: with unified newlines a text is cut alike.  The points at which
    the two texts stand may differ only in the column, and that only before a newline. -/
theorem Scan.unified {o : Nat} {p : Position} {text : List Char} {c : Tokens}
    (h : Scan o p text c) : Paired text → ∀ (o' : Nat) {p' : Position}, p'.line = p.line →
      (text.head? ≠ some '\n' → p' = p) →
        ∃ c', Scan o' p' (unifyNewlines text) c' ∧ c.Unified c' := by
  induction h with
  | done o p => exact fun _ o' p' _ _ => ⟨_, .done o' p', .nil, rfl⟩
  | @filler o p d rest c hd _ ih =>
      intro hp o' p' hline hpos
      have hstay : d ≠ '\n' := by
        rintro rfl
        exact nomatch hd
      obtain rfl := hpos fun heq => hstay (Option.some.inj heq)
      by_cases hreturn : d = '\r'
      -- the carriage return is dropped on one side only, and the newline is next
      · subst hreturn
        obtain ⟨more, rfl, hmore⟩ := hp.newline
        exact ih hmore o' rfl fun hno => absurd rfl hno
      · rw [unifyNewlines_cons hreturn]
        obtain ⟨c', hscan, halike⟩ := ih (hp.tail hreturn) (o' + 1) rfl fun _ => rfl
        exact ⟨c', .filler hd hscan, halike⟩
  | @token o p k u rest c hk hu he _ ih =>
      intro hp o' p' hline hpos
      have hclean := hu.clean hk hp
      have hpoint := hu.point_unified hline hpos
      rw [unifyNewlines_append hclean]
      obtain ⟨c', hscan, halike⟩ := ih (hp.behind hclean) (o' + u.length)
        (congrArg Position.line hpoint.2) fun _ => hpoint.2
      exact ⟨_, .token hk hu (Terminal.ends_unified hk he) hscan,
        .cons ⟨rfl, rfl, hline, hpoint.1⟩ halike.tokens, halike.stray⟩
  | @stray o p d rest hf =>
      intro hp o' p' _ hpos
      obtain ⟨hd, hf'⟩ := first?_unified hf
      have hhead : (d :: rest).head? ≠ some '\n' := by
        intro heq
        rw [Option.some.inj heq] at hf
        have hw : Terminal.separator.Writes ['\n'] := (by decide : ['\n'] ∈ separatorTexts)
        exact hw.first? rest hf
      obtain rfl := hpos hhead
      rw [unifyNewlines_cons hd]
      exact ⟨_, .stray hf', .nil, rfl⟩

/-- The tokens of a text and those of the text with unified newlines. -/
theorem Tokens.ofText_unified {text : List Char} (h : Paired text) :
    (ofText text).Unified (ofText (unifyNewlines text)) := by
  obtain ⟨c', hscan, halike⟩ := (scan_ofText text).unified h 0 rfl fun _ => rfl
  rw [show ofText (unifyNewlines text) = c' from (scan_iff ..).mp hscan]
  exact halike

end BasicSyntax
