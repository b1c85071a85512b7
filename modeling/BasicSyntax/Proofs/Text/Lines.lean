import BasicSyntax.Text.Lines
import Mathlib.Data.List.DropRight

/-! # Lines — the line that a place in a text is on

    A place cuts a text in two.  The line it is on is the last line of what is above it with the
    first line of what is below, and the newlines above it say which of the lines that is
    (`pieces_at`).  A reader of the text is handed this line too, if anything is below the place
    (`readLines_at`). -/

namespace BasicSyntax.Text

/-! ## The last line -/

theorem lastLine_concat (u : List Char) (c : Char) :
    lastLine (u ++ [c]) = if c == '\n' then [] else lastLine u ++ [c] := by
  rw [lastLine, List.reverse_concat, List.takeWhile_cons]
  cases h : c == '\n' with
  | true => rw [bne, h]; rfl
  | false => rw [bne, h]; exact List.reverse_cons

/-- The last line of a text goes on in what is behind it, up to a newline. -/
theorem lastLine_append (u v : List Char) :
    lastLine (u ++ v) = if '\n' ∈ v then lastLine v else lastLine u ++ v := by
  induction v using List.reverseRecOn with
  | nil => rw [List.append_nil, if_neg List.not_mem_nil, List.append_nil]
  | append_singleton v c ih =>
      rw [← List.append_assoc, lastLine_concat, lastLine_concat, ih]
      cases h : c == '\n' with
      | true =>
          rw [if_pos rfl, if_pos rfl,
            if_pos (List.mem_append_right _ (List.mem_singleton.mpr (beq_iff_eq.mp h).symm))]
      | false =>
          have hc : '\n' ∉ [c] := fun hm =>
            beq_eq_false_iff_ne.mp h (List.mem_singleton.mp hm).symm
          by_cases hv : '\n' ∈ v
          · rw [if_pos hv, if_pos (List.mem_append_left _ hv)]
          · rw [if_neg hv, if_neg (List.not_mem_append hv hc)]
            exact List.append_assoc ..

/-- A text without a newline is one line. -/
theorem lastLine_single {u : List Char} (h : '\n' ∉ u) : lastLine u = u := by
  have h' := lastLine_append [] u
  rw [if_neg h] at h'
  exact h'

/-- The end of the last line is the last line of the end of the text. -/
theorem lastLine_rtake (n : Nat) (u : List Char) :
    lastLine (u.rtake n) = (lastLine u).rtake n := by
  rw [lastLine, lastLine, List.rtake_eq_reverse_take_reverse, List.rtake_eq_reverse_take_reverse,
    List.reverse_reverse, List.reverse_reverse, List.take_takeWhile]

/-- The start of the first line is the first line of the start of the text. -/
theorem firstLine_take (n : Nat) (u : List Char) : firstLine (u.take n) = (firstLine u).take n :=
  (List.take_takeWhile ..).symm

/-! ## Lines by their number -/

/-- Behind a mark the pieces begin anew, with an empty one before it. -/
theorem pieces_mark (mark : Char) (u : List Char) :
    pieces mark (mark :: u) = [] :: pieces mark u := by
  rw [pieces, beq_self_eq_true]
  rfl

/-- Another character belongs to the first piece. -/
theorem pieces_cons {mark c : Char} (hc : (c == mark) = false) (u : List Char) :
    ∃ piece more, pieces mark u = piece :: more ∧ pieces mark (c :: u) = (c :: piece) :: more := by
  have hne : pieces mark u ≠ [] := by
    cases u with
    | nil => exact List.cons_ne_nil _ _
    | cons d u =>
        rw [pieces]
        split
        · exact List.cons_ne_nil _ _
        · split <;> exact List.cons_ne_nil _ _
  obtain ⟨piece, more, hp⟩ := List.exists_cons_of_ne_nil hne
  refine ⟨piece, more, hp, ?_⟩
  rw [pieces, hc, hp]
  rfl

theorem pieces_first (mark : Char) (u : List Char) :
    (pieces mark u)[0]? = some (u.takeWhile (· != mark)) := by
  induction u with
  | nil => rfl
  | cons c u ih =>
      rw [List.takeWhile_cons, bne]
      cases hc : c == mark with
      | true => rw [beq_iff_eq.mp hc, pieces_mark]; rfl
      | false =>
          obtain ⟨piece, more, hp, heq⟩ := pieces_cons hc u
          rw [hp] at ih
          rw [heq]
          exact congrArg (fun p => some (c :: p)) (Option.some.inj ih)

/-- There is a line more than there are newlines. -/
theorem pieces_length (mark : Char) (u : List Char) :
    (pieces mark u).length = u.count mark + 1 := by
  induction u with
  | nil => rfl
  | cons c u ih =>
      rw [List.count_cons]
      cases hc : c == mark with
      | true =>
          rw [beq_iff_eq.mp hc, pieces_mark]
          exact congrArg (· + 1) ih
      | false =>
          obtain ⟨piece, more, hp, heq⟩ := pieces_cons hc u
          rw [hp] at ih
          rw [heq]
          exact ih

/-- No piece is longer than the text. -/
theorem pieces_bounded (mark : Char) (u : List Char) :
    ∀ piece ∈ pieces mark u, piece.length ≤ u.length := by
  induction u with
  | nil => exact List.forall_mem_singleton.mpr (Nat.le_refl 0)
  | cons c u ih =>
      cases hc : c == mark with
      | true =>
          rw [beq_iff_eq.mp hc, pieces_mark]
          exact List.forall_mem_cons.mpr
            ⟨Nat.zero_le _, fun piece hp => Nat.le_succ_of_le (ih piece hp)⟩
      | false =>
          obtain ⟨first, more, hp, heq⟩ := pieces_cons hc u
          rw [hp] at ih
          rw [heq]
          obtain ⟨hfirst, hmore⟩ := List.forall_mem_cons.mp ih
          exact List.forall_mem_cons.mpr
            ⟨Nat.succ_le_succ hfirst, fun piece hp => Nat.le_succ_of_le (hmore piece hp)⟩

/-- **THE LINE OF A PLACE**: the lines above a place are as many as the newlines above it, and
    its own line is the last one above with the first one below. -/
theorem pieces_at (u rest : List Char) :
    (pieces '\n' (u ++ rest))[u.count '\n']? = some (lastLine u ++ firstLine rest) := by
  induction u with
  | nil => exact pieces_first '\n' rest
  | cons c u ih =>
      have hlast : lastLine (c :: u) = if '\n' ∈ u then lastLine u else lastLine [c] ++ u :=
        lastLine_append [c] u
      rw [List.cons_append, List.count_cons, hlast]
      cases hc : c == '\n' with
      | true =>
          obtain rfl := beq_iff_eq.mp hc
          rw [pieces_mark]
          refine ih.trans ?_
          by_cases hu : '\n' ∈ u
          · rw [if_pos hu]
          · rw [if_neg hu, lastLine_single hu]
            rfl
      | false =>
          have hne : '\n' ∉ [c] := fun hm =>
            beq_eq_false_iff_ne.mp hc (List.mem_singleton.mp hm).symm
          obtain ⟨piece, more, hp, heq⟩ := pieces_cons hc (u ++ rest)
          rw [hp] at ih
          rw [heq]
          by_cases hu : '\n' ∈ u
          · rw [if_pos hu]
            obtain ⟨n, hn⟩ := Nat.exists_eq_succ_of_ne_zero (List.count_pos_iff.mpr hu).ne'
            rw [hn] at ih ⊢
            exact ih
          · rw [if_neg hu, lastLine_single hne]
            rw [List.count_eq_zero_of_not_mem hu, lastLine_single hu] at ih
            rw [List.count_eq_zero_of_not_mem hu]
            exact congrArg (fun p => some (c :: p)) (Option.some.inj ih)

/-- The last of all lines is the last line. -/
theorem pieces_last (u : List Char) : (pieces '\n' u).getLast? = some (lastLine u) := by
  have h := pieces_at u []
  rw [List.append_nil, show firstLine [] = [] from rfl, List.append_nil] at h
  rw [List.getLast?_eq_getElem?, pieces_length]
  exact h

/-- The newline behind a text begins one more line, which is empty. -/
theorem pieces_newline (u : List Char) : pieces '\n' (u ++ ['\n']) = pieces '\n' u ++ [[]] := by
  induction u with
  | nil => rfl
  | cons c u ih =>
      rw [List.cons_append]
      cases hc : c == '\n' with
      | true =>
          rw [beq_iff_eq.mp hc, pieces_mark, pieces_mark, ih]
          rfl
      | false =>
          obtain ⟨piece, more, hp, heq⟩ := pieces_cons hc u
          obtain ⟨piece', more', hp', heq'⟩ := pieces_cons hc (u ++ ['\n'])
          rw [ih, hp] at hp'
          obtain ⟨rfl, rfl⟩ := List.cons.inj hp'
          rw [heq, heq']
          rfl

/-! ## Lines as they are read -/

/-- Above something that is not empty a line is read as it stands. -/
theorem readLines_at (u : List Char) {rest : List Char} (hne : rest ≠ []) :
    (readLines (u ++ rest))[u.count '\n']? = some (lastLine u ++ firstLine rest) := by
  unfold readLines
  rw [pieces_last]
  cases hl : lastLine (u ++ rest) with
  | cons c l => exact pieces_at u rest
  | nil =>
      -- only the empty line at the end is not read, and the place is on an earlier one
      have hnewline : '\n' ∈ rest := by
        refine Classical.not_not.mp fun hno => ?_
        rw [lastLine_append, if_neg hno] at hl
        exact hne (List.append_eq_nil_iff.mp hl).2
      have hcount := List.count_pos_iff.mpr hnewline
      show (pieces '\n' (u ++ rest)).dropLast[u.count '\n']? = _
      rw [List.getElem?_dropLast, if_pos, pieces_at]
      rw [pieces_length, List.count_append]
      omega

/-- A newline that was missing at the end makes no difference to a reader. -/
theorem readLines_newline {u : List Char} {c : Char} (h : c ∈ u.getLast?) (hc : c ≠ '\n') :
    readLines (u ++ ['\n']) = readLines u := by
  have hlast : lastLine u ≠ [] := by
    obtain ⟨front, rfl⟩ := List.getLast?_eq_some_iff.mp h
    rw [lastLine_concat, beq_eq_false_iff_ne.mpr hc]
    exact List.concat_ne_nil _ _
  unfold readLines
  rw [pieces_last, pieces_last, lastLine_concat, pieces_newline]
  cases hl : lastLine u with
  | nil => exact absurd hl hlast
  | cons d l => exact List.dropLast_concat

/-! ## Carriage returns -/

/-- No carriage return is left where newlines are unified. -/
theorem unifyNewlines_clean (u : List Char) : '\r' ∉ unifyNewlines u := by
  induction u using unifyNewlines.induct with
  | case1 rest ih => exact List.not_mem_cons_of_ne_of_not_mem (by decide) ih
  | case2 c rest hno ih =>
      rw [unifyNewlines]
      · refine List.not_mem_cons_of_ne_of_not_mem ?_ ih
        split
        · decide
        · rename_i hc
          exact fun heq => hc (beq_iff_eq.mpr heq.symm)
      · exact hno
  | case3 => exact List.not_mem_nil

/-- Without carriage returns there is nothing to unify. -/
theorem unifyNewlines_same {u : List Char} (h : '\r' ∉ u) : unifyNewlines u = u := by
  induction u with
  | nil => rfl
  | cons c u ih =>
      have hc := List.ne_of_not_mem_cons h
      rw [unifyNewlines, ih (List.not_mem_of_not_mem_cons h),
        beq_eq_false_iff_ne.mpr (Ne.symm hc)]
      · rfl
      · exact fun rest heq _ => hc heq.symm

end BasicSyntax.Text
