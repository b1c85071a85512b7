import BasicSyntax.Proofs.CorrectPrefix
import BasicSyntax.Proofs.Parse.Allowed

/-! # Descriptions — how a reader is told what was expected

    What was expected is a list of terminals, and a reader is told their descriptions: each once,
    in the order of their code points (`inOrder_increasing`).  The report sorts them once more,
    and finds them in order.

    Described are six sorts of token by a phrase, and all others by their one spelling between
    quotes.  No two terminals have one name (`ofName?_name`), so a list of names is described
    as the terminals are (`describeNames_names`); and since names begin otherwise than
    descriptions, no name is shown to a reader (`description_ne_name`). -/

namespace BasicSyntax

namespace Terminal

/-! ## Each once, in order -/

/-- Erasing duplicates leaves none. -/
theorem nodup_eraseDups (ds : List String) : ds.eraseDups.Nodup := by
  cases ds with
  | nil => exact .nil
  | cons d rest =>
      rw [List.eraseDups_cons, List.nodup_cons]
      constructor
      · intro hd
        have hkept := (List.mem_filter.mp (List.mem_eraseDups.mp hd)).2
        rw [beq_self_eq_true] at hkept
        exact nomatch hkept
      · exact nodup_eraseDups _
termination_by ds.length
decreasing_by exact Nat.lt_succ_of_le (List.length_filter_le ..)

theorem mem_inOrder {d : String} {ds : List String} : d ∈ inOrder ds ↔ d ∈ ds := by
  rw [inOrder, List.mem_mergeSort, List.mem_eraseDups]

theorem inOrder_sorted (ds : List String) :
    (inOrder ds).Pairwise fun a b => decide (a ≤ b) = true := by
  refine List.pairwise_mergeSort (fun a b c hab hbc => ?_) (fun a b => ?_) _
  · exact decide_eq_true (String.le_trans (of_decide_eq_true hab) (of_decide_eq_true hbc))
  · rw [Bool.or_eq_true, decide_eq_true_iff, decide_eq_true_iff]
    exact String.le_total a b

/-- **IN ORDER**: of two descriptions the earlier one is the lesser, and so each is there once. -/
theorem inOrder_increasing (ds : List String) : (inOrder ds).Pairwise (· < ·) := by
  have honce : (inOrder ds).Nodup :=
    (List.mergeSort_perm ..).nodup_iff.mpr (nodup_eraseDups ds)
  refine (inOrder_sorted ds).imp₂ (fun a b hle hne => ?_) honce
  exact Decidable.byContradiction fun hlt =>
    hne (String.le_antisymm (of_decide_eq_true hle) hlt)

/-! ## Descriptions and names -/

/-- The sorts of token that have no one spelling, and the end of the input, in words. -/
def phrases : List String :=
  ["identifier", "number", "string", "operator", "\";\" or newline", "end of input"]

/-- A reader can tell from a description what to write. -/
def Readable (d : String) : Prop :=
  d ∈ phrases ∨ ∃ (k : Terminal) (s : String), k.spelling? = some s ∧ d = "\"" ++ s ++ "\""

theorem description_spelled {k : Terminal} {s : String} (h : k.spelling? = some s) :
    k.description = "\"" ++ s ++ "\"" := by
  cases k with
  | identifier | string | filler | number | operator | separator | endOfInput => exact nomatch h
  | _ => exact congrArg (fun s => "\"" ++ s ++ "\"") (Option.some.inj h)

theorem description_readable {k : Terminal} (hk : k ≠ filler) : Readable k.description := by
  cases hs : k.spelling? with
  | some s => exact .inr ⟨k, s, hs, description_spelled hs⟩
  | none =>
      refine .inl ?_
      cases k with
      | filler => exact absurd rfl hk
      | identifier | number | string | operator | separator | endOfInput => decide
      | _ => exact nomatch hs

/-- A description begins with a quote or a small letter, and a name with neither. -/
theorem description_ne_name (k j : Terminal) : k.description ≠ j.name := by
  have hdescription : k.description.toList.head? ∈ ['"', 'i', 'n', 's', 'o', 'e'].map some := by
    cases k <;> decide
  have hname : j.name.toList.head? ∉ ['"', 'i', 'n', 's', 'o', 'e'].map some := by
    cases j <;> decide
  intro heq
  rw [heq] at hdescription
  exact hname hdescription

/-- Two terminals that are described alike are the same. -/
theorem description_injective {k j : Terminal} (h : k.description = j.description) : k = j := by
  have hfound : ∀ i : Terminal,
      (endOfInput :: order).find? (fun k => k.description == i.description) = some i := by
    intro i
    cases i <;> decide
  exact Option.some.inj ((hfound k).symm.trans (h ▸ hfound j))

theorem ofName?_name (k : Terminal) : ofName? k.name = some k := by
  cases k <;> decide

/-- **NAMES**: a list of names is described as the terminals are. -/
theorem describeNames_names (ks : List Terminal) :
    describeNames (ks.map name) = describe ks := by
  refine congrArg inOrder ?_
  induction ks with
  | nil => rfl
  | cons k ks ih =>
      rw [List.map_cons, List.filterMap_cons, ofName?_name, ih]
      cases k <;> rfl

theorem mem_describe {d : String} {ks : List Terminal} :
    d ∈ describe ks ↔ ∃ k ∈ ks, k ≠ filler ∧ k.description = d := by
  rw [describe, mem_inOrder, List.mem_map]
  simp only [List.mem_filter, bne_iff_ne, and_assoc]

end Terminal

/-! ## What an error says was expected -/

namespace Program

/-- A report sorts descriptions that are in order already. -/
theorem report_expected (e : SyntaxError) : e.report.expected = Terminal.describe e.expected :=
  List.mergeSort_of_pairwise (Terminal.inOrder_sorted _)

theorem endError_expected (text : List Char) (tokens : List Token) (expected : List Terminal) :
    (endError text tokens expected).expected = expected := by
  unfold endError
  split <;> rfl

/-- Where there is an error, there is a character with which no token begins, or reading gives up
    at a token or at the end. -/
theorem error_fails {text : List Char} {e : SyntaxError} (h : statements text = .error e) :
    (∃ stray, e = strayError text stray) ∨
      ∃ (fed later : List Token) (s : Parse.State),
        (Tokens.ofText text).tokens = fed ++ later ∧ Parse.run .start fed = .ok s ∧
          s.Fails later.head? e.expected ∧
          (∀ t ∈ later.head?, e.cause = .token t.text ∧ e.pos = t.pos) ∧
          (later = [] → e.cause = .endOfInput) := by
  rcases statements_error h with ⟨refusal, hr, rfl⟩ | ⟨reached, stray, -, -, rfl⟩ |
    ⟨reached, expected, hr, -, hf, rfl⟩
  · obtain ⟨fed, later, s, hts, hfed, hstep⟩ := Parse.run_refused _ _ hr
    have hinside := ((scan_ofText text).isSort refusal.token
      (hts ▸ List.mem_append_right _ (List.mem_cons_self ..))).2
    refine .inr ⟨fed, refusal.token :: later, s, hts, hfed, ⟨hinside, hstep⟩, ?_, nofun⟩
    rintro t ⟨⟩
    exact ⟨rfl, rfl⟩
  · exact .inl ⟨stray, rfl⟩
  · refine .inr ⟨_, [], reached, (List.append_nil _).symm, hr, ?_, nofun, fun _ => ?_⟩
    · rw [endError_expected]
      exact hf
    · unfold endError
      split <;> rfl

/-- At every error something is expected that is no filler. -/
theorem error_expected {text : List Char} {e : SyntaxError} (h : statements text = .error e) :
    ∃ k ∈ e.expected, k ≠ .filler := by
  rcases error_fails h with ⟨stray, rfl⟩ | ⟨fed, later, s, -, -, hfails, -⟩
  · exact ⟨.identifier, List.mem_cons_self .., by decide⟩
  · obtain ⟨k, hk, -⟩ := hfails.some_allowed
    exact ⟨k, hk, fun heq => Parse.filler_unknown s (heq ▸ hfails.known hk)⟩

/-- **READABLE AND CANONICAL**: whatever the error, something is expected; what is expected is
    told in the order of code points, each description once; and each is a phrase or a spelling
    between quotes, never a name and never filler.  It is what the names of the terminals are
    described as, and each of these is the name of a terminal. -/
theorem read_expected_readable (source : String) (e : SyntaxError)
    (h : read source = .error (.syntaxError e)) :
    e.report.expected ≠ [] ∧ e.report.expected.Pairwise (· < ·) ∧
      (∀ d ∈ e.report.expected, Terminal.Readable d ∧ (∀ k : Terminal, d ≠ k.name) ∧
        d ≠ Terminal.filler.description) ∧
      e.report.expected = Terminal.describeNames (e.expected.map Terminal.name) := by
  obtain ⟨k, hk, hfiller⟩ := error_expected ((read_syntaxError_iff ..).mp h)
  rw [report_expected]
  refine ⟨List.ne_nil_of_mem (Terminal.mem_describe.mpr ⟨k, hk, hfiller, rfl⟩),
    Terminal.inOrder_increasing _, fun d hd => ?_, (Terminal.describeNames_names _).symm⟩
  obtain ⟨j, -, hj, rfl⟩ := Terminal.mem_describe.mp hd
  exact ⟨Terminal.description_readable hj, Terminal.description_ne_name j,
    fun heq => hj (Terminal.description_injective heq)⟩

/-- A token out of place, a character with which no token begins, and the end of the input. -/
theorem read_expected_readable_kinds :
    (∃ e, read "x)" = .error (.syntaxError e) ∧ e.cause = .token ")" ∧
      e.report.expected ≠ [] ∧ ∀ d ∈ e.report.expected, Terminal.Readable d) ∧
    (∃ e, read "x$" = .error (.syntaxError e) ∧ e.cause = .character '$' ∧
      e.report.expected.Pairwise (· < ·) ∧ "\"WS\"" ∉ e.report.expected) ∧
    ∃ e, read "\x7b" = .error (.syntaxError e) ∧ e.cause = .endOfInput ∧
      e.report.expected ≠ [] ∧ "$END" ∉ e.report.expected := by
  refine ⟨⟨_, rfl, rfl, ?_⟩, ⟨_, rfl, rfl, ?_⟩, ⟨_, rfl, rfl, ?_⟩⟩
  · obtain ⟨hsome, -, hall, -⟩ := read_expected_readable "x)" _ rfl
    exact ⟨hsome, fun d hd => (hall d hd).1⟩
  · obtain ⟨-, horder, hall, -⟩ := read_expected_readable "x$" _ rfl
    exact ⟨horder, fun hd => (hall _ hd).2.2 rfl⟩
  · obtain ⟨hsome, -, hall, -⟩ := read_expected_readable "\x7b" _ rfl
    exact ⟨hsome, fun hd => (hall _ hd).2.1 .endOfInput rfl⟩

end Program

end BasicSyntax
