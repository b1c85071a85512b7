import BasicSyntax.Proofs.Grammar.Shape
import BasicSyntax.Proofs.Node.Unplaced
import BasicSyntax.Proofs.RoundTrip

/-! # Texts as literals — which of them are written so that they read back

    A literal that stands in a program is written back as it stands there, since encoding undoes
    decoding on everything that may stand between quotes.

    Not every text has a literal that means it.  One that holds a backslash before an `n` is
    written as something that means a newline, and one with a quote or a lone backslash in it
    ends its literal too early or not at all.  `read_literal_iff` says that these are all: what
    is read is well-formed, so a text that reads back is one that may stand in a tree. -/

namespace BasicSyntax

open Grammar

/-- What is written between quotes is written back as it is. -/
theorem Text.write_readLiteral {written : String} (h : Terminal.string.Writes written.toList) :
    writeLiteral (readLiteral written) = written := by
  obtain ⟨body, hwritten, hbody⟩ := h
  rw [writeLiteral, readLiteral_quoted hwritten,
    encode_decode body (literalBody_line body hbody), ← hwritten, String.ofList_toList]

namespace Node

/-- A text in a well-formed statement is one that can be written. -/
theorem IsStmt.literal {literal : String} {pos : Option Position}
    (h : (string literal pos).IsStmt) : IsLiteral literal := by
  cases h with
  | cluster h =>
      cases h with
      | expr h =>
          cases h with
          | string pos hl => exact hl

/-- What agrees with a text is a text, the same one. -/
theorem agrees_string_iff {n : Node} (hn : n.IsPrintable) {literal : String}
    {pos : Option Position} :
    n.agrees (string literal pos) = true ↔ ∃ pos', n = string literal pos' := by
  constructor
  · intro h
    have heq := agrees_unplaced hn (.string literal pos) h
    cases hn with
    | string literal' pos' =>
        obtain rfl := (string.inj heq).1
        exact ⟨pos', rfl⟩
    | _ => exact nomatch heq
  · rintro ⟨pos', rfl⟩
    exact agrees_string literal pos' pos

end Node

namespace Program

/-- **LITERALS**: a literal is written as it was read, character for character; and the source
    form of a text reads back as that text exactly if no backslash stands before an `n` in it
    and, encoded, it may stand between quotes. -/
theorem read_literal_iff :
    (∀ (written : String) (pos : Option Position), Terminal.string.Writes written.toList →
      (Node.string (Text.readLiteral written) pos).source = .ok written) ∧
    ∀ (literal : String) (pos : Option Position), ∃ text,
      (Node.string literal pos).source = .ok text ∧
        ((∃ n, read text = .ok [n] ∧ n.agrees (.string literal pos) = true) ↔
          IsLiteral literal) := by
  constructor
  · intro written pos h
    exact congrArg Except.ok (Text.write_readLiteral h)
  · intro literal pos
    refine ⟨Text.writeLiteral literal, rfl, ?_, ?_⟩
    · rintro ⟨n, hread, hagree⟩
      have hentry : n.IsEntry := read_entries hread n (List.mem_singleton_self n)
      obtain ⟨pos', rfl⟩ := (Node.agrees_string_iff hentry.printable).mp hagree
      rcases hentry with hnull | hstmt
      · exact nomatch hnull
      · exact hstmt.literal
    · intro h
      obtain ⟨text, htext, n, hread, hagree⟩ :=
        read_statement (.cluster (.expr (.string pos h)))
      obtain rfl : Text.writeLiteral literal = text := Except.ok.inj htext
      exact ⟨n, hread, hagree⟩

/-- An escaped backslash, an escaped quote and an escaped newline are written as they stand. -/
theorem read_literal_escapes :
    Terminal.string.Writes "\"a\\\\b\\\"\\n\"".toList ∧
      (Node.string (Text.readLiteral "\"a\\\\b\\\"\\n\"") none).source =
        .ok "\"a\\\\b\\\"\\n\"" := by
  have h : Terminal.string.Writes "\"a\\\\b\\\"\\n\"".toList :=
    ⟨"a\\\\b\\\"\\n".toList, rfl, by decide⟩
  exact ⟨h, read_literal_iff.1 _ none h⟩

end Program

end BasicSyntax
