import BasicSyntax.Proofs.CorrectPrefix
import BasicSyntax.Proofs.Parse.Allowed

/-! # What follows — behind tokens, and behind one token

    A terminal fits behind tokens if some accepted program goes on so: `Fits` looks at all the
    tokens before it, and `Neighbours` only at the last.  The end of the input counts as a
    terminal that stands behind the last token of each program.

    What fits is what the state allows that the tokens lead to (`fits_iff`): what the state
    allows can be written down, and what it does not allow no program has.  What is a neighbour
    is what some state behind such a token knows (`neighbours_iff`); for each pair there is a
    program that has it (`lead`). -/

namespace BasicSyntax.Program

/-- The sorts of the tokens of a program, and the end of the input behind them. -/
def endedSorts (source : String) : List Terminal :=
  sorts source ++ [.endOfInput]

/-- Some accepted program begins with tokens of these sorts and has the terminal behind them. -/
def Fits (fed : List Token) (k : Terminal) : Prop :=
  ∃ source, Accepted source ∧ fed.map Token.terminal ++ [k] <+: endedSorts source

/-- Some accepted program has the one terminal directly behind the other. -/
def Neighbours (l k : Terminal) : Prop :=
  ∃ source, Accepted source ∧ [l, k] <:+: endedSorts source

theorem sorts_isSort {source : String} :
    ∀ k ∈ sorts source, k.IsSort := by
  intro k hk
  obtain ⟨t, ht, rfl⟩ := List.mem_map.mp hk
  exact (scan_ofText _).isSort t ht

/-! ## Behind tokens -/

section

variable {ts : List Token} {s : Parse.State}

/-- Tokens of the same sorts can be written down, with a separator behind them. -/
theorem read_samples (hin : ∀ t ∈ ts, t.terminal.IsSort) :
    ∃ (ts' : List Token) (sep : Token),
      Tokens.ofText (sampleText (ts.map Token.terminal) ++ [';']) = ⟨ts' ++ [sep], none⟩ ∧
        ts.map Token.terminal = ts'.map Token.terminal ∧ sep.terminal = .separator := by
  obtain ⟨ts', sep, hts, hsep, hscan⟩ :=
    scan_samples (ts.map Token.terminal) (List.forall_mem_map.mpr hin) 0 .start
  exact ⟨ts', sep, (scan_iff ..).mp hscan, hts.symm, hsep⟩

/-- Some accepted program begins with tokens of the sorts of tokens that are read. -/
theorem viable_sorts (hin : ∀ t ∈ ts, t.terminal.IsSort)
    (hr : Parse.run .start ts = .ok s) :
    ∃ source, Accepted source ∧ ts.map Token.terminal <+: sorts source := by
  obtain ⟨ts', sep, hread, hsorts, -⟩ := read_samples hin
  have halike := Parse.run_sorts hsorts
  rw [hr] at halike
  obtain ⟨s', hr', -⟩ := halike.ok
  obtain ⟨source, hacc, hpre⟩ := viable_of_run (congrArg Tokens.tokens hread) hr'
  exact ⟨source, hacc, hsorts ▸ hpre.map Token.terminal⟩

theorem complete_semicolon (text : List Char) : complete (text ++ [';']) = text ++ [';'] := by
  refine complete_separated ?_
  rw [List.getLast?_concat]
  rintro c ⟨⟩
  rfl

/-- Some accepted program has tokens of just these sorts, if a program may end behind them. -/
theorem ended_sorts {stmts : List Node}
    (hin : ∀ t ∈ ts, t.terminal.IsSort)
    (hr : Parse.run .start ts = .ok s) (hf : Parse.finish s = .ok stmts) :
    ∃ source, Accepted source ∧ sorts source = ts.map Token.terminal := by
  obtain rfl := Parse.finish_ok hf
  rcases List.eq_nil_or_concat ts with rfl | ⟨front, l, rfl⟩
  · exact ⟨"", ⟨[], rfl⟩, rfl⟩
  · rw [List.concat_eq_append] at hin hr ⊢
    obtain ⟨hfront, hl⟩ := List.forall_mem_append.mp hin
    -- only a separator leads between lines, and the samples end in one
    have hsep : l.terminal = .separator :=
      (Parse.run_after _ _ (fun t ht => (hin t ht).2) hr l List.getLast?_concat).between
    obtain ⟨ts', sep, hread, hsorts, hsep'⟩ := read_samples hfront
    have heq : (front ++ [l]).map Token.terminal = (ts' ++ [sep]).map Token.terminal := by
      rw [List.map_append, List.map_append, hsorts, List.map_singleton, List.map_singleton, hsep,
        hsep']
    have halike := Parse.run_sorts heq
    rw [hr] at halike
    obtain ⟨s', hr', hs'⟩ := halike.ok
    obtain ⟨stmts', hf'⟩ : ∃ stmts', Parse.finish s' = .ok stmts' := by
      cases hs' with
      | stmt hc =>
          cases hc with
          | line hb => exact ⟨_, rfl⟩
    have hcomplete := complete_semicolon (sampleText (front.map Token.terminal))
    refine ⟨String.ofList (sampleText (front.map Token.terminal) ++ [';']), ⟨stmts', ?_⟩, ?_⟩
    · rw [String.toList_ofList, hcomplete]
      refine statements_done ?_ (congrArg Tokens.stray hread) hf'
      rw [hread]
      exact hr'
    · rw [sorts, tokens, String.toList_ofList, hcomplete, hread, heq]

/-- **FITTING**: what fits behind tokens is what the state allows that they lead to. -/
theorem fits_iff {k : Terminal}
    (hin : ∀ t ∈ ts, t.terminal.IsSort)
    (hr : Parse.run .start ts = .ok s) : Fits ts k ↔ s.Allows k := by
  constructor
  · rintro ⟨source, hacc, hpre⟩
    rcases List.prefix_concat_iff.mp hpre with heq | hpre
    · obtain ⟨hsorts, hk⟩ := List.append_inj' heq rfl
      obtain rfl := List.singleton_inj.mp hk
      cases hf : Parse.finish s with
      | ok stmts => exact .inl ⟨rfl, stmts, hf⟩
      | error e => exact absurd ⟨source, hacc, hsorts.symm⟩ (not_accepted_of_end hr hf)
    · have hk : k ∈ sorts source :=
        hpre.subset (List.mem_append_right _ (List.mem_singleton.mpr rfl))
      cases hstep : Parse.step k.bare s with
      | ok next => exact .inr ⟨(sorts_isSort k hk).2, next, hstep⟩
      | error e =>
          refine absurd ⟨source, hacc, ?_⟩ (not_accepted_of_refusal hr hstep)
          rw [List.map_append]
          exact hpre
  · intro h
    have hknown := Parse.allows_known h
    rcases h with ⟨rfl, stmts, hf⟩ | ⟨hend, next, hstep⟩
    · obtain ⟨source, hacc, hsorts⟩ := ended_sorts hin hr hf
      have heq : ts.map Token.terminal ++ [.endOfInput] = endedSorts source := by
        rw [endedSorts, hsorts]
      exact ⟨source, hacc, heq ▸ List.prefix_rfl⟩
    · have hfiller : k ≠ .filler := fun h => Parse.filler_unknown s (h ▸ hknown)
      have hrun : Parse.run .start (ts ++ [k.bare]) = .ok next := by
        rw [Parse.run_append, hr]
        show Parse.run s [k.bare] = _
        rw [Parse.run, hstep]
        rfl
      obtain ⟨source, hacc, hpre⟩ := viable_sorts
        (List.forall_mem_append.mpr ⟨hin, List.forall_mem_singleton.mpr ⟨hfiller, hend⟩⟩) hrun
      refine ⟨source, hacc, ?_⟩
      rw [List.map_append] at hpre
      exact hpre.trans (List.prefix_append ..)

end

/-! ## Behind one token -/

/-- What is around a terminal, to have a certain terminal behind it. -/
def around : Terminal → List Terminal
  | .closeBrace => [.openBrace]
  | .closeSquare => [.openSquare]
  | .closeParen => [.openParen]
  | .elseWord => [.ifWord, .number]
  | _ => []

/-- What is inside brackets that a terminal closes. -/
def inside : Terminal → List Terminal
  | .closeBrace => [.openBrace]
  | .closeSquare => [.openSquare]
  | .closeParen => [.openParen, .number]
  | _ => []

/-- Terminals before two neighbours with which they begin a program.  What ends an argument is
    the argument of some name. -/
def lead (l k : Terminal) : List Terminal :=
  match l with
  | .separator => around k
  | .equals => [.letWord, .identifier]
  | .arrow => [.funWord, .identifier]
  | .elseWord => [.ifWord, .number, .number]
  | .operator | .minus => [.identifier]
  | .macroWord => [.letWord]
  | .identifier | .number | .string | .underline | .closeBrace | .closeSquare | .closeParen =>
    match k with
    | .equals => [.letWord]
    | .arrow => [.funWord]
    | .funWord => .ifWord :: .identifier :: inside l
    | _ => around k ++ .identifier :: inside l
  | _ => []

theorem lead_runs : ∀ l ∈ Terminal.order, ∀ k ∈ Parse.followers l, k ≠ .endOfInput →
    (∀ j ∈ lead l k ++ [l, k], j.IsSort) ∧
      (Parse.run .start ((lead l k ++ [l, k]).map Terminal.bare)).isOk = true := by
  decide +kernel

/-- Of two neighbours in a program, the tokens up to the first are read, and the second fits. -/
theorem neighbours_fit {l k : Terminal} (h : Neighbours l k) :
    ∃ (fed : List Token) (s : Parse.State),
      (∀ t ∈ fed, t.terminal.IsSort) ∧
        Parse.run .start fed = .ok s ∧ (∃ t ∈ fed.getLast?, t.terminal = l) ∧ Fits fed k := by
  obtain ⟨source, hacc, before, later, heq⟩ := h
  have hpair : before ++ [l] ++ [k] <+: endedSorts source :=
    ⟨later, by rw [← heq, List.append_assoc before]; rfl⟩
  have hpre : before ++ [l] <+: sorts source := by
    rcases List.prefix_concat_iff.mp hpair with heq | hpre
    · exact (List.append_inj' heq rfl).1 ▸ List.prefix_rfl
    · exact (List.prefix_append ..).trans hpre
  obtain ⟨more, hmore⟩ := hpre
  obtain ⟨fed, rest, htokens, hfed, -⟩ := List.map_eq_append_iff.mp hmore.symm
  have hin : ∀ t ∈ fed, t.terminal.IsSort := fun t ht =>
    (scan_ofText _).isSort t (show t ∈ tokens source from htokens ▸ List.mem_append_left _ ht)
  have hlast : ∃ t ∈ fed.getLast?, t.terminal = l := by
    have h : (fed.map Token.terminal).getLast? = some l := by rw [hfed, List.getLast?_concat]
    rw [List.getLast?_map, Option.map_eq_some_iff] at h
    exact h
  obtain ⟨reached, stmts, hrun, -⟩ := accepted_run hacc
  rw [htokens, Parse.run_append] at hrun
  cases hr : Parse.run .start fed with
  | error refusal =>
      rw [hr] at hrun
      exact nomatch hrun
  | ok s => exact ⟨fed, s, hin, hr, hlast, source, hacc, hfed ▸ hpair⟩

/-- What some state behind a token knows is its neighbour in the program that begins so. -/
theorem neighbours_lead {l k : Terminal} (hl : l ∈ Terminal.order) (hk : k ∈ Parse.followers l)
    (hend : k ≠ .endOfInput) : Neighbours l k := by
  obtain ⟨hin, hok⟩ := lead_runs l hl k hk hend
  cases hr : Parse.run .start ((lead l k ++ [l, k]).map Terminal.bare) with
  | error refusal =>
      rw [hr] at hok
      exact nomatch hok
  | ok s =>
      obtain ⟨source, hacc, rest, hrest⟩ := viable_sorts (List.forall_mem_map.mpr hin) hr
      rw [Terminal.bare_sorts] at hrest
      refine ⟨source, hacc, lead l k, rest ++ [.endOfInput], ?_⟩
      rw [endedSorts, ← hrest, List.append_assoc (lead l k ++ [l, k])]

/-- **NEIGHBOURS**: what may stand behind a token is what some state behind it knows. -/
theorem neighbours_iff {l k : Terminal} : Neighbours l k ↔ k ∈ Parse.followers l := by
  constructor
  · intro h
    obtain ⟨fed, s, hin, hr, ⟨t, ht, rfl⟩, hfits⟩ := neighbours_fit h
    have ha := Parse.run_after _ _ (fun t ht => (hin t ht).2) hr t ht
    exact (Parse.after_followers ha).1 (Parse.allows_known ((fits_iff hin hr).mp hfits))
  · intro hk
    have hl : l ∈ Terminal.order := by
      cases l with
      | endOfInput => exact nomatch hk
      | _ => decide
    by_cases hend : k = .endOfInput
    · subst hend
      have hsep : ∀ l ∈ Terminal.order, .endOfInput ∈ Parse.followers l → l = .separator := by
        decide
      rw [hsep l hl hk]
      exact ⟨";", ⟨_, rfl⟩, List.infix_rfl⟩
    · exact neighbours_lead hl hk hend

instance (l k : Terminal) : Decidable (Neighbours l k) :=
  decidable_of_iff _ neighbours_iff.symm

example : Neighbours .identifier .equals ∧ ¬ Neighbours .number .equals := by decide

end BasicSyntax.Program
