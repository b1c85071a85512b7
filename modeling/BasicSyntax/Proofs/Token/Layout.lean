import BasicSyntax.Proofs.Reading
import BasicSyntax.Proofs.Token.Place

/-! # Layout — what may stand between tokens

    A text is laid out anew by putting filler before any of its tokens and by putting the other
    separator in the place of any of its separators (`Layout.apply`).  What stands between the
    tokens and behind the last one stays.

    The new text is cut into the same tokens, separators apart (`Scan.laidOut`).  The point of
    this is what a token has behind it: that is told by its next character, and the next
    character either stays or becomes filler or a separator, where every token ends
    (`Scan.ends_laidOut`).  So the look-aheads of the terminals cannot come to another answer. -/

namespace BasicSyntax

open Text

/-- Another layout of a text: filler that is put before tokens, and separators that are replaced
    by the other one. -/
structure Layout where
  gap : Token → List Char
  gap_filler : ∀ t, ∀ c ∈ gap t, isFiller c = true
  exchanged : Token → Bool

/-- The separator that is not this one. -/
def otherSeparator : List Char → List Char
  | [';'] => ['\n']
  | _ => [';']

namespace Layout

/-- What stands in the new text for a token. -/
def text (l : Layout) (t : Token) : List Char :=
  if t.terminal = .separator ∧ l.exchanged t = true then otherSeparator t.text.toList
  else t.text.toList

/-- A text from an offset on, with its tokens laid out anew. -/
def apply (l : Layout) (o : Nat) : List Token → List Char → List Char
  | [], rest => rest
  | t :: ts, rest =>
    rest.take (t.offset - o) ++ (l.gap t ++ l.text t ++
      l.apply (t.offset + t.text.length) ts (rest.drop (t.offset - o + t.text.length)))

/-- A source with all its tokens laid out anew. -/
def source (l : Layout) (source : String) : String :=
  String.ofList (l.apply 0 (Tokens.ofText source.toList).tokens source.toList)

variable (l : Layout) {o : Nat}

/-- What stands before the first token stays. -/
theorem apply_skip {ts : List Token} (h : ∀ t ∈ ts, o + 1 ≤ t.offset) (c : Char)
    (rest : List Char) : l.apply o ts (c :: rest) = c :: l.apply (o + 1) ts rest := by
  cases ts with
  | nil => rfl
  | cons t ts =>
      have ht : o + 1 ≤ t.offset := h t List.mem_cons_self
      have hskip : t.offset - o = t.offset - (o + 1) + 1 := by omega
      rw [apply, apply, hskip, Nat.add_right_comm, List.take_succ_cons, List.drop_succ_cons]
      rfl

/-- A token at the offset itself has the filler before it. -/
theorem apply_token (k : Terminal) (u : List Char) (p : Position) (ts : List Token)
    (rest : List Char) :
    l.apply o (⟨k, String.ofList u, o, p⟩ :: ts) (u ++ rest) =
      l.gap ⟨k, String.ofList u, o, p⟩ ++ l.text ⟨k, String.ofList u, o, p⟩ ++
        l.apply (o + u.length) ts rest := by
  rw [apply, Nat.sub_self, Nat.zero_add, String.length_ofList, List.take_zero, List.nil_append,
    List.drop_left]

end Layout

theorem Tokens.prepend_token (t : Token) (c : Tokens) : (c.prepend [t]).tokens = t :: c.tokens :=
  rfl

/-! ## Cutting the new text -/

/-- A token where the text is laid out anew: of a separator only that it is one stays. -/
structure Token.Relaid (t t' : Token) : Prop where
  terminal : t'.terminal = t.terminal
  text : t.terminal ≠ .separator → t'.text = t.text

/-- Filler and separators end every token. -/
theorem Terminal.ends_between {k : Terminal} (hk : k ≠ .filler) (u : List Char) {c : Char}
    (hc : isFiller c = true ∨ Program.isSeparator c = true) (more : List Char) :
    k.Ends u (c :: more) := by
  have hclass : isWordChar c = false ∧ c.isDigit = false ∧ (c == '-') = false ∧
      (c == '=') = false ∧ (c == '>') = false := by
    simp only [isFiller, Program.isSeparator, Bool.or_eq_true, beq_iff_eq] at hc
    rcases hc with ((((rfl | rfl) | rfl) | rfl) | rfl) | (rfl | rfl) <;> decide
  obtain ⟨hword, hdigit, hminus, hequals, hgreater⟩ := hclass
  cases k with
  | filler => exact absurd rfl hk
  | number => exact hdigit
  | operator => exact fun _ => hminus
  | equals => exact hequals
  | minus => exact hgreater
  | identifier | macroWord | whileWord | elseWord | funWord | letWord | ifWord | underline =>
      exact hword
  | _ => trivial

/-- What writes a separator is one separator, and so is the other one. -/
theorem Terminal.writes_separator {u : List Char} (h : Terminal.separator.Writes u) :
    (∃ c, u = [c] ∧ Program.isSeparator c = true) ∧
      Terminal.separator.Writes (otherSeparator u) := by
  have hall : ∀ u ∈ separatorTexts, (u = [';'] ∨ u = ['\n']) := by decide
  rcases hall u h with rfl | rfl
  · exact ⟨⟨_, rfl, rfl⟩, show ['\n'] ∈ separatorTexts by decide⟩
  · exact ⟨⟨_, rfl, rfl⟩, show [';'] ∈ separatorTexts by decide⟩

namespace Layout

variable (l : Layout)

/-- What stands for a token is its text, or a separator for a separator. -/
theorem text_cases (t : Token) (ht : t.terminal.Writes t.text.toList) :
    l.text t = t.text.toList ∨ t.terminal = .separator ∧
      ∃ c, l.text t = [c] ∧ Program.isSeparator c = true := by
  rw [text]
  split
  · next h =>
      rw [h.1] at ht
      exact .inr ⟨h.1, (Terminal.writes_separator (Terminal.writes_separator ht).2).1⟩
  · exact .inl rfl

/-- What stands for a token writes its terminal, and ends where the token does. -/
theorem text_writes {t : Token} (ht : t.terminal.Writes t.text.toList) {rest : List Char}
    (he : t.terminal.Ends t.text.toList rest) :
    t.terminal.Writes (l.text t) ∧ t.terminal.Ends (l.text t) rest := by
  rw [text]
  split
  · next h =>
      rw [h.1] at ht ⊢
      exact ⟨(Terminal.writes_separator ht).2, trivial⟩
  · exact ⟨ht, he⟩

end Layout

namespace Scan

variable {o : Nat} {p : Position} {text : List Char} {c : Tokens}

/-- Tokens do not stand before the text. -/
theorem offset_le (h : Scan o p text c) : ∀ t ∈ c.tokens, o ≤ t.offset := by
  intro t ht
  obtain ⟨above, -, -, ho, -⟩ := h.placed t ht
  rw [ho]
  exact Nat.le_add_right o above.length

/-- Behind the filler at the front of a text the layout goes on. -/
theorem apply_filler (h : Scan (o + 1) p text c) (l : Layout) {ts later : List Token}
    (hc : c.tokens = ts ++ later) (d : Char) :
    l.apply o ts (d :: text) = d :: l.apply (o + 1) ts text :=
  l.apply_skip (fun t ht => h.offset_le t (hc ▸ List.mem_append_left later ht)) d text

/-- What ends a token before a text ends it before the new one. -/
theorem ends_laidOut (h : Scan o p text c) (l : Layout) {ts later : List Token}
    (hc : c.tokens = ts ++ later) {k : Terminal} (hk : k ≠ .filler) {u : List Char}
    (he : k.Ends u text) : k.Ends u (l.apply o ts text) := by
  cases ts with
  | nil => exact he
  | cons t ts =>
      cases h with
      | done o p => exact nomatch hc
      | stray _ => exact nomatch hc
      | filler _ h =>
          rw [h.apply_filler l hc]
          exact Terminal.ends_head _ he
      | @token _ _ k' w rest _ _ hw _ h =>
          obtain ⟨rfl, -⟩ := List.cons.inj hc
          rw [l.apply_token, List.append_assoc]
          cases hgap : l.gap ⟨k', String.ofList w, o, p⟩ with
          | cons d gap =>
              refine Terminal.ends_between hk u
                (.inl (l.gap_filler ⟨k', String.ofList w, o, p⟩ d ?_)) _
              rw [hgap]
              exact List.mem_cons_self
          | nil =>
              have hw' : k'.Writes (String.ofList w).toList := String.toList_ofList.symm ▸ hw
              rcases l.text_cases ⟨k', String.ofList w, o, p⟩ hw' with htext | ⟨-, d, htext, hd⟩
              · rw [htext, String.toList_ofList]
                cases w with
                | nil => exact absurd rfl (Terminal.writes_nonempty hw)
                | cons d w => exact Terminal.ends_head _ he
              · rw [htext]
                exact Terminal.ends_between hk u (.inr hd) _

/-- **LAYOUT**: a text that is cut to its end is cut into the same tokens, separators apart, with
    any of its first tokens laid out anew and wherever it stands then. -/
theorem laidOut (h : Scan o p text c) (l : Layout) (hs : c.stray = none) :
    ∀ {ts later : List Token}, c.tokens = ts ++ later → ∀ (o' : Nat) (p' : Position),
      ∃ ts', Scan o' p' (l.apply o ts text) ⟨ts', none⟩ ∧
        List.Forall₂ Token.Relaid c.tokens ts' := by
  induction h with
  | done o p =>
      intro ts later hc o' p'
      obtain ⟨rfl, -⟩ := List.append_eq_nil_iff.mp hc.symm
      exact ⟨[], .done o' p', .nil⟩
  | stray _ => exact nomatch hs
  | filler hd h ih =>
      intro ts later hc o' p'
      obtain ⟨ts', hscan, halike⟩ := ih hs hc (o' + 1) (p'.after _)
      rw [h.apply_filler l hc]
      exact ⟨ts', .filler hd hscan, halike⟩
  | @token o p k u rest c hk hu he h ih =>
      intro ts later hc o' p'
      cases ts with
      | nil =>
          obtain ⟨ts', hscan, halike⟩ := ih hs (List.nil_append c.tokens).symm
            (o' + u.length) (p'.afterAll u)
          exact ⟨_, .token hk hu he hscan, .cons ⟨rfl, fun _ => rfl⟩ halike⟩
      | cons t ts =>
          obtain ⟨rfl, hc'⟩ := List.cons.inj hc
          have hu' : k.Writes (String.ofList u).toList := String.toList_ofList.symm ▸ hu
          have he' : k.Ends (String.ofList u).toList (l.apply (o + u.length) ts rest) := by
            rw [String.toList_ofList]
            exact h.ends_laidOut l hc' hk he
          obtain ⟨hwrites, hends⟩ := l.text_writes (t := ⟨k, String.ofList u, o, p⟩) hu' he'
          rw [l.apply_token, List.append_assoc]
          generalize htext : l.text ⟨k, String.ofList u, o, p⟩ = w at hwrites hends
          generalize hgap : l.gap ⟨k, String.ofList u, o, p⟩ = gap
          have hfiller : ∀ d ∈ gap, isFiller d = true := hgap ▸ l.gap_filler _
          obtain ⟨ts', hscan, halike⟩ := ih hs hc' (o' + gap.length + w.length)
            ((p'.afterAll gap).afterAll w)
          refine ⟨_, .fillers hfiller (.token hk hwrites hends hscan), .cons ⟨rfl, ?_⟩ halike⟩
          intro hno
          rcases l.text_cases ⟨k, String.ofList u, o, p⟩ hu' with hsame | ⟨hsep, -⟩
          · rw [← htext, hsame]
            exact String.ofList_toList
          · exact absurd hsep hno

/-! ## The last line -/

/-- Layout of all the tokens of a text leaves alone what is behind it. -/
theorem apply_append (h : Scan o p text c) (l : Layout) (more : List Char) :
    l.apply o c.tokens (text ++ more) = l.apply o c.tokens text ++ more := by
  induction h with
  | done o p => rfl
  | stray _ => rfl
  | filler _ h ih =>
      rw [List.cons_append, l.apply_skip h.offset_le, l.apply_skip h.offset_le, ih]
      rfl
  | token _ _ _ _ ih =>
      rw [List.append_assoc, Tokens.prepend_token, l.apply_token, l.apply_token, ih]
      simp only [List.append_assoc]

/-- Whether a text ends in a separator stays. -/
theorem apply_last (h : Scan o p text c) (l : Layout) :
    (l.apply o c.tokens text).getLast?.map Program.isSeparator =
      text.getLast?.map Program.isSeparator := by
  induction h with
  | done o p => rfl
  | stray _ => rfl
  | filler _ h ih =>
      rw [l.apply_skip h.offset_le, List.getLast?_cons, List.getLast?_cons, Option.map_some,
        Option.map_some, ← Option.getD_map Program.isSeparator, ih, Option.getD_map]
  | @token o p k u rest c hk hu _ _ ih =>
      have hu' : k.Writes (String.ofList u).toList := String.toList_ofList.symm ▸ hu
      have htext : (l.text ⟨k, String.ofList u, o, p⟩).getLast?.map Program.isSeparator =
          u.getLast?.map Program.isSeparator := by
        rcases l.text_cases ⟨k, String.ofList u, o, p⟩ hu' with hsame | ⟨rfl, d, hd, hsep⟩
        · rw [hsame, String.toList_ofList]
        · obtain ⟨⟨e, rfl, hsep'⟩, -⟩ := Terminal.writes_separator hu
          rw [hd]
          exact congrArg some (hsep.trans hsep'.symm)
      obtain ⟨e, he⟩ := Option.ne_none_iff_exists'.mp
        (mt List.getLast?_eq_none_iff.mp (Terminal.writes_nonempty hu))
      rw [Tokens.prepend_token, l.apply_token, List.getLast?_append, List.getLast?_append,
        List.getLast?_append, Option.map_or, Option.map_or, Option.map_or, htext, ih, he]
      rfl

/-- The newline that completes a text is a token by itself, behind those of the text. -/
theorem last_newline (h : Scan o p text c) : ∀ {front : List Char}, text = front ++ ['\n'] →
    c.stray = none → ∃ ts t, c.tokens = ts ++ [t] ∧ Scan o p front ⟨ts, none⟩ := by
  induction h with
  | done o p => exact fun heq => absurd heq.symm (List.concat_ne_nil _ _)
  | stray _ => exact fun _ hs => nomatch hs
  | @filler o p d rest c hd _ ih =>
      intro front heq hs
      cases front with
      | nil =>
          rw [(List.cons.inj heq).1] at hd
          exact nomatch hd
      | cons e front =>
          obtain ⟨rfl, heq'⟩ := List.cons.inj heq
          obtain ⟨ts, t, hc, hscan⟩ := ih heq' hs
          exact ⟨ts, t, hc, .filler hd hscan⟩
  | @token o p k u rest c hk hu he h ih =>
      intro front heq hs
      rcases List.eq_nil_or_concat rest with rfl | ⟨more, d, hrest⟩
      · rw [List.append_nil] at heq
        rw [heq] at hu
        obtain rfl := hu.last_separator rfl
        obtain rfl : ⟨[], none⟩ = c := (scan_iff ..).mp h
        exact ⟨[], _, rfl, .done o p⟩
      · rw [List.concat_eq_append] at hrest
        rw [hrest, ← List.append_assoc] at heq
        obtain ⟨rfl, hd⟩ := List.append_inj' heq rfl
        rw [hd] at hrest
        obtain ⟨ts, t, hc, hscan⟩ := ih hrest hs
        have he' : k.Ends u more := by
          rw [hrest] at he
          cases more with
          | nil => exact Terminal.ends_nil k u
          | cons e more => exact Terminal.ends_head _ he
        exact ⟨_ :: ts, t, congrArg (_ :: ·) hc, .token hk hu he' hscan⟩

end Scan

namespace Program

variable {text : List Char}

/-- A text that is laid out anew is completed as it was. -/
theorem complete_laidOut (l : Layout) (text : List Char) :
    complete (l.apply 0 (Tokens.ofText text).tokens text) =
      l.apply 0 (Tokens.ofText text).tokens (complete text) := by
  have hlast := (scan_ofText text).apply_last l
  rcases complete_cases text with ⟨heq, hsep⟩ | ⟨heq, c, hc, hno⟩
  · rw [heq]
    refine complete_separated fun d hd => ?_
    rw [Option.mem_def.mp hd] at hlast
    obtain ⟨c, hc, hcd⟩ := Option.map_eq_some_iff.mp hlast.symm
    exact hcd ▸ hsep c hc
  · rw [heq, (scan_ofText text).apply_append]
    rw [Option.mem_def.mp hc] at hlast
    obtain ⟨d, hd, hcd⟩ := Option.map_eq_some_iff.mp hlast
    exact complete_unseparated hd (hcd.trans hno)

/-- The tokens of a text are the first ones of the completed text. -/
theorem tokens_complete (hs : (Tokens.ofText (complete text)).stray = none) :
    ∃ later, (Tokens.ofText (complete text)).tokens = (Tokens.ofText text).tokens ++ later := by
  rcases complete_cases text with ⟨heq, -⟩ | ⟨heq, -⟩
  · rw [heq]
    exact ⟨[], (List.append_nil _).symm⟩
  · obtain ⟨ts, t, hc, hscan⟩ := (scan_ofText (complete text)).last_newline heq hs
    rw [show Tokens.ofText text = ⟨ts, none⟩ from (scan_iff ..).mp hscan]
    exact ⟨[t], hc⟩

end Program

end BasicSyntax
