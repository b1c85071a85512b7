import BasicSyntax.Proofs.Description
import BasicSyntax.Proofs.Follow

/-! # Expected — how far the list in an error can be relied on

    An error at a token, or at the end of the input, lists terminals that were expected there.
    The list is not that of the terminals that fit there: reading may have closed parts before it
    gave up, and a stage is shared by all contexts in which it occurs.  Then terminals that fit
    are missing, and others are listed that fit in another context only.

    What holds of every list is in `Told`: something on it fits, the token that was met is not on
    it, and everything on it may stand behind a token such as the last one.  Nothing that fits is
    missing unless the token that was met might stand behind such a token as well, and behind
    most sorts of token the list is then that of everything that might.  Behind a token that
    opens a part the list is exact, and behind a separator it is but for the closing brackets. -/

namespace BasicSyntax.Program

/-- The brackets that close statements. -/
def closers : List Terminal := [.closeBrace, .closeSquare]

/-- What a list of descriptions tells of the point between two lists of tokens. -/
structure Told (fed later : List Token) (expected : List String) : Prop where
  /-- Something that is listed fits. -/
  fits : ∃ k : Terminal, Fits fed k ∧ k.description ∈ expected
  /-- What was met is not listed. -/
  other : ∀ t ∈ later.head?, t.terminal.description ∉ expected
  /-- Everything that is listed is somewhere a neighbour of the last token. -/
  neighbour : ∀ l ∈ fed.getLast?, ∀ d ∈ expected,
    ∃ k : Terminal, k.description = d ∧ Neighbours l.terminal k
  /-- What fits is listed, unless what was met is such a neighbour itself. -/
  complete : (∀ l ∈ fed.getLast?, ∀ t ∈ later.head?, ¬ Neighbours l.terminal t.terminal) →
    ∀ k, Fits fed k → k.description ∈ expected
  /-- Then all such neighbours are listed, but behind three sorts of token. -/
  neighbours : ∀ l ∈ fed.getLast?, l.terminal ∉ [.separator, .closeParen, .minus] →
    (∀ t ∈ later.head?, ¬ Neighbours l.terminal t.terminal) →
      ∀ k, k.description ∈ expected ↔ Neighbours l.terminal k
  /-- Where a part has just been opened, just what fits is listed. -/
  opening : (∀ l ∈ fed.getLast?, l.terminal ∈ Parse.openingSorts) →
    ∀ d, d ∈ expected ↔ ∃ k : Terminal, k.description = d ∧ Fits fed k
  /-- Behind a separator it is so but for the closing brackets: both are listed if one fits. -/
  separated : (∃ l ∈ fed.getLast?, l.terminal = .separator) →
    (∀ t ∈ later.head?, t.terminal ∉ closers) →
      ∀ k, k.description ∈ expected ↔ Fits fed k ∨ (k ∈ closers ∧ ∃ j ∈ closers, Fits fed j)

section

variable {fed later : List Token} {s : Parse.State} {e : Parse.Expected}

/-- What is listed where reading gives up. -/
theorem listed_iff (hf : s.Fails later.head? e) {k : Terminal} :
    k.description ∈ Terminal.describe e ↔ k ∈ e := by
  rw [Terminal.mem_describe]
  constructor
  · rintro ⟨j, hj, -, heq⟩
    rw [← Terminal.description_injective heq]
    exact hj
  · intro hk
    exact ⟨k, hk, fun heq => Parse.filler_unknown s (heq ▸ hf.known hk), rfl⟩

/-- Where tokens have led. -/
theorem led (hin : ∀ t ∈ fed, t.terminal.IsSort) (hr : Parse.run .start fed = .ok s) :
    s = .start ∧ fed.getLast? = none ∨ ∃ l ∈ fed.getLast?, Parse.After l.terminal s := by
  cases hl : fed.getLast? with
  | none =>
      rw [List.getLast?_eq_none_iff.mp hl] at hr
      exact .inl ⟨(Except.ok.inj hr).symm, rfl⟩
  | some l => exact .inr ⟨l, rfl, Parse.run_after _ _ (fun t ht => (hin t ht).2) hr l hl⟩

variable (hin : ∀ t ∈ fed, t.terminal.IsSort) (hr : Parse.run .start fed = .ok s)
  (hf : s.Fails later.head? e)
include hin hr hf

theorem told_opening (hopen : ∀ l ∈ fed.getLast?, l.terminal ∈ Parse.openingSorts)
    (k : Terminal) : k ∈ e ↔ Fits fed k := by
  rw [fits_iff hin hr]
  rcases led hin hr with ⟨rfl, -⟩ | ⟨l, hl, ha⟩
  · rw [hf.line]
    exact ⟨Parse.allows_line, Parse.allows_known⟩
  · rw [hf.opening ha (hopen l hl)]
    exact ⟨Parse.allows_opening ha (hopen l hl), Parse.allows_known⟩

theorem told_separated (hsep : ∃ l ∈ fed.getLast?, l.terminal = .separator)
    (hmet : ∀ t ∈ later.head?, t.terminal ∉ closers) (k : Terminal) :
    k ∈ e ↔ Fits fed k ∨ (k ∈ closers ∧ ∃ j ∈ closers, Fits fed j) := by
  obtain ⟨l, hl, hsep⟩ := hsep
  have ha := Parse.run_after _ _ (fun t ht => (hin t ht).2) hr l hl
  rw [hsep] at ha
  have hfits := fun j => fits_iff (k := j) hin hr
  rcases ha.separated with ⟨before, rfl⟩ | ⟨form, before, c, rfl⟩
  · -- between lines no closing bracket fits
    have hno : ∀ j ∈ closers, j ∉ Parse.Expected.line := by decide
    rw [hf.line, hfits]
    constructor
    · exact fun hk => .inl (Parse.allows_line hk)
    · rintro (h | ⟨-, j, hj, h⟩)
      · exact Parse.allows_known h
      · exact absurd (Parse.allows_known ((hfits j).mp h)) (hno j hj)
  · have hcloser : form.closer ∈ closers := by cases form <;> decide
    rw [hf.item hmet, hfits]
    constructor
    · intro hk
      by_cases hc : k ∈ closers
      · refine .inr ⟨hc, form.closer, hcloser, (hfits _).mpr ?_⟩
        exact Parse.allows_item (Parse.closer_known ..) fun _ => rfl
      · exact .inl (Parse.allows_item hk fun h => absurd h hc)
    · have hknown : closers ⊆ Parse.Expected.laterItem := by decide
      rintro (h | ⟨hc, -⟩)
      · exact Parse.allows_known h
      · exact hknown hc

/-- Unless what is met may stand behind such a token, all that is known is listed. -/
theorem told_known (hmet : ∀ l ∈ fed.getLast?, ∀ t ∈ later.head?,
    ¬ Neighbours l.terminal t.terminal) : e = s.expected := by
  rcases led hin hr with ⟨rfl, -⟩ | ⟨l, hl, ha⟩
  · exact hf.line
  · refine hf.all_of_unknown fun t ht hknown => ?_
    exact hmet l hl t ht (neighbours_iff.mpr ((Parse.after_followers ha).1 hknown))

/-- **TOLD**: where reading gives up, this is what the list tells. -/
theorem told_fails : Told fed later (Terminal.describe e) where
  fits := by
    obtain ⟨k, hk, hallowed⟩ := hf.some_allowed
    exact ⟨k, (fits_iff hin hr).mpr hallowed, (listed_iff hf).mpr hk⟩
  other t ht := fun h => hf.other t ht ((listed_iff hf).mp h)
  neighbour l hl d hd := by
    obtain ⟨k, hk, -, rfl⟩ := Terminal.mem_describe.mp hd
    have ha := Parse.run_after _ _ (fun t ht => (hin t ht).2) hr l hl
    exact ⟨k, rfl, neighbours_iff.mpr ((Parse.after_followers ha).1 (hf.known hk))⟩
  complete hmet k hk := by
    rw [listed_iff hf, told_known hin hr hf hmet]
    exact Parse.allows_known ((fits_iff hin hr).mp hk)
  neighbours l hl hl' hmet k := by
    have ha := Parse.run_after _ _ (fun t ht => (hin t ht).2) hr l hl
    have hall : e = s.expected := by
      refine told_known hin hr hf fun l' hl'' => ?_
      rw [Option.mem_unique hl'' hl]
      exact hmet
    rw [listed_iff hf, hall, neighbours_iff, (Parse.after_followers ha).2 hl']
  opening hopen d := by
    constructor
    · intro hd
      obtain ⟨k, hk, -, rfl⟩ := Terminal.mem_describe.mp hd
      exact ⟨k, rfl, (told_opening hin hr hf hopen k).mp hk⟩
    · rintro ⟨k, rfl, hk⟩
      exact (listed_iff hf).mpr ((told_opening hin hr hf hopen k).mpr hk)
  separated hsep hmet k := by
    rw [listed_iff hf]
    exact told_separated hin hr hf hsep hmet k

end

/-- **EXPECTED**: an error that is not about a character stands between two lists of tokens, at
    the first of the second or at the end of the input, and its list tells this of the point. -/
theorem read_expected (source : String) (e : SyntaxError)
    (h : read source = .error (.syntaxError e)) (hc : ∀ c, e.cause ≠ .character c) :
    ∃ fed later : List Token, tokens source = fed ++ later ∧
      (∀ t ∈ later.head?, e.cause = .token t.text ∧ e.pos = t.pos) ∧
      (later = [] → e.cause = .endOfInput) ∧ Told fed later e.report.expected := by
  rcases error_fails ((read_syntaxError_iff ..).mp h) with ⟨stray, rfl⟩ |
    ⟨fed, later, s, htokens, hr, hf, htoken, hend⟩
  · exact absurd rfl (hc stray.char)
  · have hin : ∀ t ∈ fed, t.terminal.IsSort := fun t ht =>
      (scan_ofText _).isSort t (htokens ▸ List.mem_append_left _ ht)
    refine ⟨fed, later, htokens, htoken, hend, ?_⟩
    rw [report_expected]
    exact told_fails hin hr hf

/-- At the end of an open bracket the list tells of everything before it. -/
theorem read_expected_brace :
    ∃ e, read "\x7b" = .error (.syntaxError e) ∧ (∀ c, e.cause ≠ .character c) ∧
      Told (tokens "\x7b") [] e.report.expected := by
  refine ⟨_, rfl, nofun, ?_⟩
  obtain ⟨fed, later, htokens, htoken, -, htold⟩ := read_expected "\x7b" _ rfl nofun
  cases later with
  | nil =>
      rw [htokens, List.append_nil]
      exact htold
  | cons t rest => exact nomatch (htoken t rfl).1

/-- **NOT EXACT**: behind a name that a round bracket follows nothing that begins an argument is
    listed, though a name would fit, and square brackets are, though there are none to close. -/
theorem read_expected_paren :
    ∃ (e : SyntaxError) (fed later : List Token) (t : Token),
      read "x)" = .error (.syntaxError e) ∧ tokens "x)" = fed ++ t :: later ∧
        e.cause = .token t.text ∧ e.pos = t.pos ∧
        (Terminal.closeSquare.description ∈ e.report.expected ∧
          ¬ ∃ k : Terminal, k.description = Terminal.closeSquare.description ∧ Fits fed k) ∧
        Terminal.identifier.description ∉ e.report.expected ∧ Fits fed .identifier := by
  -- the state behind the name; the bracket has closed the name and the statement
  have hin : ∀ t ∈ [Token.mk .identifier "x" 0 ⟨1, 1⟩],
      t.terminal ≠ .filler ∧ t.terminal ≠ .endOfInput := by decide
  have hr : Parse.run .start [⟨.identifier, "x", 0, ⟨1, 1⟩⟩] = .ok (.applied ⟨"x", some ⟨1, 1⟩⟩ []
      true (.operand [] false (.cluster (.stmt (.line []))))) := rfl
  have hf : Parse.State.Fails (.applied ⟨"x", some ⟨1, 1⟩⟩ [] true
      (.operand [] false (.cluster (.stmt (.line [])))))
      (List.head? [⟨.closeParen, ")", 1, ⟨1, 2⟩⟩]) Parse.Expected.afterStmt := ⟨by decide, rfl⟩
  refine ⟨_, [⟨.identifier, "x", 0, ⟨1, 1⟩⟩], _, ⟨.closeParen, ")", 1, ⟨1, 2⟩⟩, rfl, rfl, rfl, rfl,
    ⟨?_, ?_⟩, ?_, ?_⟩
  · rw [report_expected]
    exact (listed_iff hf).mpr (by decide)
  · rintro ⟨k, hk, hfits⟩
    rw [Terminal.description_injective hk, fits_iff hin hr] at hfits
    rcases hfits with ⟨hend, -⟩ | ⟨-, next, hstep⟩
    · exact nomatch hend
    · exact nomatch hstep
  · rw [report_expected]
    exact fun hd => absurd ((listed_iff hf).mp hd) (by decide)
  · exact (fits_iff hin hr).mpr (.inr ⟨by decide, _, rfl⟩)

end BasicSyntax.Program
