import BasicSyntax.Proofs.CorrectPrefix
import BasicSyntax.Proofs.Token.Place

/-! # The point of an error — its message, its line and its excerpt agree

    An error takes its point from three places: a token out of place has its own, so has a
    character with which no token begins, and a text that ends too early is reported at its last
    token.  In each case the point cuts the text in two (`SyntaxError.PointsAt`): its line and
    column are those behind the text above, its message names what the text below begins with,
    and its excerpt is cut around the same place.

    What a user sees follows from that.  The excerpt shows the line of the point and nothing of
    any other, and the point is on a line of the source as it was given, whether a newline was
    supplied or not. -/

namespace BasicSyntax

open Text

/-- What an error says it met is what a text begins with. -/
def Cause.MetIn (cause : Cause) (rest : List Char) : Prop :=
  match cause with
  | character c => ∃ more, rest = c :: more
  | token t => t ≠ "" ∧ t.toList <+: rest
  | endOfInput => ∃ c, rest = [c] ∧ Program.isSeparator c = true

theorem Cause.MetIn.nonempty {cause : Cause} {rest : List Char} (h : cause.MetIn rest) :
    rest ≠ [] := by
  cases cause with
  | character c =>
      obtain ⟨more, rfl⟩ := h
      exact List.cons_ne_nil c more
  | token t =>
      obtain ⟨hne, more, rfl⟩ := h
      intro hnil
      have htext := (List.append_eq_nil_iff.mp hnil).1
      exact hne (String.toList_inj.mp htext)
  | endOfInput =>
      obtain ⟨c, rfl, -⟩ := h
      exact List.cons_ne_nil c []

/-- An error stands where a text is cut in two. -/
structure SyntaxError.PointsAt (e : SyntaxError) (text above rest : List Char) : Prop where
  split : text = above ++ rest
  pos : e.pos = point above
  met : e.cause.MetIn rest
  context : e.context = excerptAt text above.length

/-- An excerpt shows what is on the line of its place, not too far from it on either side. -/
theorem excerptAt_line (above rest : List Char) :
    let before := (lastLine above).rtake excerptReach
    excerptAt (above ++ rest) above.length =
      String.ofList (before ++ ((firstLine rest).take excerptReach ++
        '\n' :: (List.replicate (width before) ' ' ++ ['^', '\n']))) := by
  intro before
  have hbefore : lastLine (above.drop (above.length - excerptReach)) = before :=
    lastLine_rtake excerptReach above
  rw [excerptAt, List.take_left, List.drop_left, excerpt, hbefore, firstLine_take,
    List.append_assoc]

namespace Program

/-- **WHERE AN ERROR STANDS**: an error points at a place of the completed text, and names what
    the text has there. -/
theorem error_points {text : List Char} {e : SyntaxError} (h : statements text = .error e)
    (hlast : ∀ c ∈ text.getLast?, isSeparator c = true) :
    ∃ above rest, e.PointsAt text above rest := by
  rcases statements_error h with ⟨refusal, hr, rfl⟩ | ⟨-, stray, -, hs, rfl⟩ |
    ⟨reached, expected, hr, hs, hf, rfl⟩
  · obtain ⟨fed, later, -, hts, -⟩ := Parse.run_refused _ _ hr
    have ht : refusal.token ∈ (Tokens.ofText text).tokens := by
      rw [hts]
      exact List.mem_append_right _ (List.mem_cons_self ..)
    obtain ⟨above, below, hstands, hoffset, hpos⟩ := Token.placed _ ht
    refine ⟨above, _, hstands.split, hpos, ⟨?_, List.prefix_append _ below⟩, ?_⟩
    · intro htext
      exact Terminal.writes_nonempty hstands.writes (congrArg String.toList htext)
    · rw [← hoffset]
      rfl
  · obtain ⟨above, below, htext, hoffset, hpos⟩ := Stray.placed hs
    refine ⟨above, _, htext, hpos, ⟨below, rfl⟩, ?_⟩
    rw [← hoffset]
    rfl
  · rcases List.eq_nil_or_concat text with rfl | ⟨front, c, hconcat⟩
    -- an empty text is a program
    · obtain rfl := Except.ok.inj hr
      exact nomatch hf
    · rw [List.concat_eq_append] at hconcat
      subst hconcat
      have hc := hlast c List.getLast?_concat
      obtain ⟨t, ht, hoffset, hpos⟩ := Token.last_separator hc hs
      refine ⟨front, [c], rfl, ?_, ?_, ?_⟩ <;> rw [endError, ht]
      · exact hpos
      · exact ⟨c, rfl, hc⟩
      · rw [← hoffset]

/-- The lines of a text are those of its completion. -/
theorem readLines_complete (text : List Char) : readLines (complete text) = readLines text := by
  rcases complete_cases text with ⟨heq, -⟩ | ⟨heq, c, hc, hno⟩
  · rw [heq]
  · rw [heq]
    refine readLines_newline hc ?_
    rintro rfl
    exact Bool.noConfusion hno

/-- **AN ERROR'S POINT**: the message, the line, the column and the excerpt of an error describe
    one point of the completed text.  The point is on a line of the source, at most one column
    behind it.  What the message names stands there: a character, a token, or for the end of the
    input the last character, which is a separator.  And the excerpt shows the line of the point,
    up to forty characters on either side, with a mark below the point. -/
theorem read_error_point (source : String) (e : SyntaxError)
    (h : read source = .error (.syntaxError e)) :
    let text := complete source.toList
    (∃ line, (readLines source.toList)[e.pos.line - 1]? = some line ∧ 1 ≤ e.pos.line ∧
      1 ≤ e.pos.column ∧ e.pos.column ≤ line.length + 1) ∧
    e.report.message = e.cause.message ∧ e.report.line = e.pos.line ∧
      e.report.column = e.pos.column ∧ e.report.context = some e.context ∧
    ∃ above rest, text = above ++ rest ∧ e.pos = point above ∧ e.cause.MetIn rest ∧
      (pieces '\n' text)[e.pos.line - 1]? = some (lastLine above ++ firstLine rest) ∧
      let before := (lastLine above).rtake 40
      e.context = String.ofList (before ++ ((firstLine rest).take 40 ++
        '\n' :: (List.replicate (width before) ' ' ++ ['^', '\n']))) := by
  intro text
  obtain ⟨above, rest, hp⟩ := error_points ((read_syntaxError_iff source e).mp h)
    (complete_last source.toList)
  have hline : e.pos.line - 1 = above.count '\n' := by
    rw [hp.pos]
    rfl
  refine ⟨⟨lastLine above ++ firstLine rest, ?_, ?_, ?_, ?_⟩, rfl, rfl, rfl, rfl,
    above, rest, hp.split, hp.pos, hp.met, ?_, ?_⟩
  · rw [← readLines_complete, hp.split, hline]
    exact readLines_at above hp.met.nonempty
  · rw [hp.pos]
    exact Nat.le_add_left ..
  · rw [hp.pos]
    exact Nat.le_add_left ..
  · rw [hp.pos, List.length_append]
    exact Nat.succ_le_succ (Nat.le_add_right ..)
  · rw [show text = above ++ rest from hp.split, hline]
    exact pieces_at above rest
  · rw [hp.context, hp.split]
    exact excerptAt_line above rest

/-- A bracket that nothing opened stands behind a tab, which the excerpt fills up; one that
    nothing closes is reported at the newline that was supplied, behind the line of the source. -/
theorem read_error_point_brackets :
    (∃ e, read "\t)" = .error (.syntaxError e) ∧ e.context = "\t)\n        ^\n" ∧
      ∃ above rest, "\t)\n".toList = above ++ rest ∧ e.pos = point above ∧
        e.cause.MetIn rest) ∧
    ∃ e, read "\x7b" = .error (.syntaxError e) ∧ e.pos = ⟨1, 2⟩ ∧
      ∃ line, (readLines "\x7b".toList)[0]? = some line ∧ e.pos.column ≤ line.length + 1 := by
  refine ⟨⟨_, rfl, rfl, ?_⟩, ⟨_, rfl, rfl, ?_⟩⟩
  · obtain ⟨-, -, -, -, -, above, rest, hsplit, hpos, hmet, -⟩ := read_error_point "\t)" _ rfl
    exact ⟨above, rest, hsplit, hpos, hmet⟩
  · obtain ⟨⟨line, hline, -, -, hcolumn⟩, -⟩ := read_error_point "\x7b" _ rfl
    exact ⟨line, hline, hcolumn⟩

end Program

end BasicSyntax
