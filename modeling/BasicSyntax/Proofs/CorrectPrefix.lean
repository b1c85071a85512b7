import BasicSyntax.Proofs.Parse.Completion
import BasicSyntax.Proofs.Reading

/-! # Correct prefixes — an error is found as early as it can be

    Tokens are `Viable` if some accepted program begins with them.  Whatever has been read
    without an error is viable: the state that was reached has an ending (`run_ending`), and the
    ending can be written down behind the text that was read (`viable_of_run`).  A token at
    which reading fails is not viable behind what was read before it, not even if another token
    of its sort stands there (`not_accepted_of_refusal`).

    So an error stands at the first point from which the program cannot be saved. -/

namespace BasicSyntax

open Grammar

/-! ## Writing an ending down -/

/-- One way to write each sort of token. -/
def Terminal.sample : Terminal → List Char
  | identifier => ['x']
  | number => ['0']
  | string => ['"', '"']
  | operator => ['+']
  | separator => [';']
  | terminal => (terminal.spelling?.getD "").toList

/-- Terminals written down, each with a blank behind it. -/
def sampleText (ks : List Terminal) : List Char :=
  ks.flatMap fun k => k.sample ++ [' ']

theorem sample_writes {k : Terminal} (hk : k.IsSort) : k.Writes k.sample := by
  cases k with
  | filler => exact absurd rfl hk.1
  | endOfInput => exact absurd rfl hk.2
  | identifier =>
      exact ⟨by decide, List.forall_mem_singleton.mpr (by decide),
        fun c hc => Option.some.inj hc ▸ by decide, by decide⟩
  | number => exact ⟨by decide, List.forall_mem_singleton.mpr rfl⟩
  | string => exact ⟨[], rfl, rfl⟩
  | operator => exact (by decide : ['+'] ∈ operatorTexts)
  | separator => exact (by decide : [';'] ∈ separatorTexts)
  | _ => rfl

/-- The tokens of terminals that are written down, with a separator behind them. -/
theorem scan_samples : ∀ (ks : List Terminal), (∀ k ∈ ks, k.IsSort) →
    ∀ (o : Nat) (p : Position), ∃ (ts : List Token) (sep : Token),
      Parse.OfSorts ks ts ∧ sep.terminal = .separator ∧
        Scan o p (sampleText ks ++ [';']) ⟨ts ++ [sep], none⟩ := by
  intro ks
  induction ks with
  | nil =>
      intro _ o p
      refine ⟨[], ⟨.separator, ";", o, p⟩, rfl, rfl, ?_⟩
      have h : Scan o p ([';'] ++ []) ((Tokens.mk [] none).prepend
          [⟨.separator, String.ofList [';'], o, p⟩]) :=
        .token (by decide) (show [';'] ∈ separatorTexts by decide) trivial (.done _ _)
      exact h
  | cons k ks ih =>
      intro hks o p
      obtain ⟨hk, hks⟩ := List.forall_mem_cons.mp hks
      obtain ⟨ts, sep, hts, hsep, hscan⟩ :=
        ih hks (o + k.sample.length + 1) ((p.afterAll k.sample).after ' ')
      refine ⟨⟨k, String.ofList k.sample, o, p⟩ :: ts, sep, ?_, hsep, ?_⟩
      · show k :: ts.map Token.terminal = k :: ks
        rw [hts]
      -- the blank behind a sample ends it, whatever comes next
      · have h := Scan.token (o := o) (p := p) hk.1 (sample_writes hk)
          (Terminal.ends_blank hk.1 k.sample (sampleText ks ++ [';'])) (.filler rfl hscan)
        have heq : sampleText (k :: ks) ++ [';'] =
            k.sample ++ ' ' :: (sampleText ks ++ [';']) := by
          simp only [sampleText, List.flatMap_cons, List.append_assoc, List.cons_append,
            List.nil_append]
        rw [heq]
        exact h

/-! ## Accepted and viable -/

namespace Program

/-- The tokens of a program, with the separator that ends its last line. -/
def tokens (source : String) : List Token :=
  (Tokens.ofText (complete source.toList)).tokens

/-- The sorts of the tokens of a program. -/
def sorts (source : String) : List Terminal :=
  (tokens source).map Token.terminal

/-- A program has no syntax error. -/
def Accepted (source : String) : Prop :=
  ∃ stmts, statements (complete source.toList) = .ok stmts

/-- Some accepted program begins with the tokens. -/
def Viable (fed : List Token) : Prop :=
  ∃ source, Accepted source ∧ fed <+: tokens source

/-- **NO DEAD END**: tokens that are read without an error are viable. -/
theorem viable_of_run {text : List Char} {fed later : List Token} {s : Parse.State}
    (ht : (Tokens.ofText text).tokens = fed ++ later) (hr : Parse.run .start fed = .ok s) :
    Viable fed := by
  -- the new program is the text up to the last token fed, a blank and an ending of the state
  obtain ⟨u, rest, -, hfront⟩ := (scan_ofText text).front fed later ht
  have hending : ∀ k ∈ Parse.endingSorts, k.IsSort := by decide
  obtain ⟨ts, sep, hts, hsep, hscan⟩ := scan_samples s.ending
    (fun k hk => hending k (Parse.ending_sorts s k hk))
    (0 + u.length + 1) ((Position.start.afterAll u).after ' ')
  have hnew := (scan_iff ..).mp (hfront _ _ hscan)
  obtain ⟨reached, out, hrun, hfinish⟩ := Parse.run_ending s hts hsep
  -- it ends in a separator, so nothing is added to it
  have hcomplete : complete (u ++ ' ' :: (sampleText s.ending ++ [';'])) =
      u ++ ' ' :: (sampleText s.ending ++ [';']) := by
    have hlast : (u ++ ' ' :: (sampleText s.ending ++ [';'])).getLast? = some ';' := by
      rw [← List.cons_append, ← List.append_assoc, List.getLast?_append]
      rfl
    rw [complete, hlast]
    rfl
  have htokens : (Tokens.ofText (u ++ ' ' :: (sampleText s.ending ++ [';']))).tokens =
      fed ++ (ts ++ [sep]) := congrArg Tokens.tokens hnew
  refine ⟨String.ofList (u ++ ' ' :: (sampleText s.ending ++ [';'])), ⟨out, ?_⟩, ?_⟩
  · rw [String.toList_ofList, hcomplete]
    refine statements_done ?_ (congrArg Tokens.stray hnew) hfinish
    rw [htokens, Parse.run_append, hr]
    exact hrun
  · rw [tokens, String.toList_ofList, hcomplete, htokens]
    exact List.prefix_append ..

/-- What is accepted is read to the end. -/
theorem accepted_run {source : String} (h : Accepted source) :
    ∃ reached stmts, Parse.run .start (tokens source) = .ok reached ∧
      Parse.finish reached = .ok stmts := by
  obtain ⟨stmts, hs⟩ := h
  obtain ⟨-, d, ht, hg, hn⟩ := (statements_iff _ _).mp hs
  obtain ⟨reached, hr, hf⟩ := (Parse.run_derivation _ _).mpr ⟨d, ht, hg, hn⟩
  exact ⟨reached, stmts, hr, hf⟩

/-- A token at which reading fails is not viable behind the tokens before it, nor is any other
    token of its sort behind tokens of their sorts. -/
theorem not_accepted_of_refusal {fed : List Token} {t : Token} {s : Parse.State}
    {e : Parse.Expected} (hr : Parse.run .start fed = .ok s) (ht : Parse.step t s = .error e) :
    ¬ ∃ source, Accepted source ∧ (fed ++ [t]).map Token.terminal <+: sorts source := by
  rintro ⟨source, hacc, more, hmore⟩
  obtain ⟨fed', later, heq, hfed, -⟩ := List.map_eq_append_iff.mp hmore.symm
  obtain ⟨reached, stmts, hrun, -⟩ := accepted_run hacc
  rw [heq, Parse.run_append] at hrun
  -- the other program reads tokens of the same sorts, and so comes to a state like this one
  have halike := Parse.run_sorts hfed
  rw [Parse.run_append, hr] at halike
  have hfail : Parse.run s [t] = .error ⟨t, e⟩ := by rw [Parse.run, ht]
  rw [show (Except.ok s : Except Parse.Refusal Parse.State).bind
    (fun reached => Parse.run reached [t]) = .error ⟨t, e⟩ from hfail] at halike
  cases hfed' : Parse.run .start fed' with
  | error refusal =>
      rw [hfed'] at hrun
      cases hrun
  | ok reached' =>
      rw [hfed'] at halike
      exact halike

/-- A text that ends too early has no tokens of a program, whatever they are of their sorts. -/
theorem not_accepted_of_end {ts : List Token} {s : Parse.State} {e : Parse.Expected}
    (hr : Parse.run .start ts = .ok s) (hf : Parse.finish s = .error e) :
    ¬ ∃ source, Accepted source ∧ sorts source = ts.map Token.terminal := by
  rintro ⟨source, hacc, hsorts⟩
  obtain ⟨reached, stmts, hrun, hfinish⟩ := accepted_run hacc
  have halike := Parse.run_sorts hsorts
  rw [hrun, hr] at halike
  -- the other program ends between lines, and so does this one, which then is complete
  obtain rfl := Parse.finish_ok hfinish
  cases halike with
  | stmt hc =>
      cases hc with
      | line hb => exact nomatch hf

end Program

/-- Where a run fails, the tokens before the one that is refused are read. -/
theorem Parse.run_refused : ∀ (ts : List Token) (s : State) {refusal : Refusal},
    run s ts = .error refusal → ∃ (fed later : List Token) (reached : State),
      ts = fed ++ refusal.token :: later ∧ run s fed = .ok reached ∧
        step refusal.token reached = .error refusal.expected := by
  intro ts
  induction ts with
  | nil => intro s refusal h; exact nomatch h
  | cons t rest ih =>
      intro s refusal h
      rw [run] at h
      cases hstep : step t s with
      | error e =>
          rw [hstep] at h
          obtain rfl := Except.error.inj h
          exact ⟨[], rest, s, rfl, rfl, hstep⟩
      | ok next =>
          rw [hstep] at h
          obtain ⟨fed, later, reached, rfl, hr, ht⟩ := ih next h
          refine ⟨t :: fed, later, reached, rfl, ?_, ht⟩
          rw [run, hstep]
          exact hr

/-- The words of an error tell the end of the input from everything else. -/
theorem Cause.message_end (cause : Cause) :
    cause.message = "Unexpected end of input" ↔ cause = .endOfInput := by
  -- twelve characters tell the causes apart, whatever follows them
  have hdiffer : ∀ (a b : String), a.toList.take 12 ≠ b.toList.take 12 →
      12 ≤ a.length → ∀ c, a ++ c ≠ b := by
    intro a b hne hlen c heq
    rw [← heq, String.toList_append, List.take_append_of_le_length hlen] at hne
    exact hne rfl
  cases cause with
  | character c => exact iff_of_false (hdiffer _ _ (by decide) (by decide) _) nofun
  | token text => exact iff_of_false (hdiffer _ _ (by decide) (by decide) _) nofun
  | endOfInput => exact iff_of_true rfl rfl

namespace Program

/-- **CORRECT PREFIX**: an error is reported at the first point from which the program cannot
    be saved.  What stands before it is viable; a token that is reported is not, behind what
    stands before it; and the end of the input is reported exactly if all of the tokens are
    viable and are not the tokens of a program. -/
theorem error_position (source : String) (e : SyntaxError)
    (h : read source = .error (.syntaxError e)) :
    let cut := Tokens.ofText (complete source.toList)
    ((∃ fed t later, cut.tokens = fed ++ t :: later ∧ e.cause = .token t.text ∧ e.pos = t.pos ∧
        Viable fed ∧
        ¬ ∃ other, Accepted other ∧ (fed ++ [t]).map Token.terminal <+: sorts other) ∨
      (∃ stray, cut.stray = some stray ∧ e.cause = .character stray.char ∧
        e.pos = stray.pos ∧ Viable cut.tokens) ∨
      (e.cause = .endOfInput ∧ Viable cut.tokens)) ∧
    (e.report.message = "Unexpected end of input" ↔
      cut.stray = none ∧ Viable cut.tokens ∧
        ¬ ∃ other, Accepted other ∧ sorts other = cut.tokens.map Token.terminal) := by
  intro cut
  have hall : cut.tokens = cut.tokens ++ [] := (List.append_nil _).symm
  have hcause : e.report.message = "Unexpected end of input" ↔ e.cause = .endOfInput :=
    Cause.message_end e.cause
  rw [hcause]
  rw [read_syntaxError_iff] at h
  cases hr : Parse.run .start cut.tokens with
  | error refusal =>
      rw [statements_refused hr] at h
      obtain rfl := Except.error.inj h
      obtain ⟨fed, later, s, hts, hfed, hstep⟩ := Parse.run_refused _ _ hr
      have hno := not_accepted_of_refusal hfed hstep
      refine ⟨Or.inl ⟨fed, refusal.token, later, hts, rfl, rfl, viable_of_run hts hfed, hno⟩, ?_⟩
      refine iff_of_false nofun ?_
      rintro ⟨-, ⟨other, hacc, hpre⟩, -⟩
      -- a program that began with all tokens would begin with the refused one too
      have hfirst : fed ++ [refusal.token] <+: cut.tokens :=
        ⟨later, by rw [hts, List.append_assoc, List.singleton_append]⟩
      exact hno ⟨other, hacc, (hfirst.trans hpre).map Token.terminal⟩
  | ok reached =>
      have hviable : Viable cut.tokens := viable_of_run hall hr
      cases hs : cut.stray with
      | some stray =>
          rw [statements_stray hr hs] at h
          obtain rfl := Except.error.inj h
          exact ⟨Or.inr (Or.inl ⟨stray, rfl, rfl, rfl, hviable⟩),
            iff_of_false nofun fun hc => nomatch hc.1⟩
      | none =>
          cases hf : Parse.finish reached with
          | ok stmts =>
              rw [statements_done hr hs hf] at h
              exact nomatch h
          | error expected =>
              rw [statements_ended hr hs hf] at h
              have hend : e.cause = .endOfInput := by
                rw [← Except.error.inj h, endError]
                split <;> rfl
              exact ⟨Or.inr (Or.inr ⟨hend, hviable⟩),
                iff_of_true hend ⟨rfl, hviable, not_accepted_of_end hr hf⟩⟩

/-- A bracket that nothing opened, a character with which no token begins, and a bracket that
    nothing closes: each is an error behind viable tokens. -/
theorem error_position_brackets :
    (∃ e, read ")" = .error (.syntaxError e) ∧
      ∃ fed t later, tokens ")" = fed ++ t :: later ∧ e.pos = t.pos ∧ Viable fed) ∧
    (∃ e, read "x$" = .error (.syntaxError e) ∧ Viable (tokens "x$")) ∧
    ∃ e, read "\x7b" = .error (.syntaxError e) ∧
      e.report.message = "Unexpected end of input" ∧ Viable (tokens "\x7b") := by
  refine ⟨⟨_, rfl, ?_⟩, ⟨_, rfl, ?_⟩, ⟨_, rfl, rfl, ?_⟩⟩
  · rcases (error_position ")" _ rfl).1 with h | ⟨stray, -, hc, -⟩ | ⟨hc, -⟩
    · obtain ⟨fed, t, later, hts, -, hp, hv, -⟩ := h
      exact ⟨fed, t, later, hts, hp, hv⟩
    · exact nomatch hc
    · exact nomatch hc
  · rcases (error_position "x$" _ rfl).1 with ⟨fed, t, later, -, hc, -⟩ | ⟨-, -, -, -, hv⟩ | h
    · exact nomatch hc
    · exact hv
    · exact h.2
  · exact ((error_position "\x7b" _ rfl).2.mp rfl).2.1

end Program

end BasicSyntax
