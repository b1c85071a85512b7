import BasicSyntax.Proofs.WellFormed

/-! # Literals — decoding and encoding undo each other

    What stands between quotes holds no newline, so decoding it and encoding the result gives it
    back.  A text that is meant holds no backslash before an `n` if it comes from decoding, and
    then encoding it and decoding the result gives it back too. -/

namespace BasicSyntax.Text

/-- No newline stands between quotes. -/
theorem literalBody_line : ∀ body : List Char, isLiteralBody body = true → '\n' ∉ body := by
  intro body
  induction body using isLiteralBody.induct with
  | case1 => exact fun _ => List.not_mem_nil
  | case2 c rest ih =>
      intro h
      rw [isLiteralBody, Bool.and_eq_true, bne_iff_ne] at h
      intro hm
      rcases List.mem_cons.mp hm with hm | hm
      · exact absurd hm (by decide)
      · rcases List.mem_cons.mp hm with hm | hm
        · exact h.1 hm.symm
        · exact ih h.2 hm
  | case3 c rest hc ih =>
      intro h
      rw [isLiteralBody] at h
      · simp only [Bool.and_eq_true, bne_iff_ne] at h
        intro hm
        rcases List.mem_cons.mp hm with hm | hm
        · exact h.1.2 hm.symm
        · exact ih h.2 hm
      · exact hc

/-- What stands between quotes is given back by decoding and encoding. -/
theorem encode_decode : ∀ body : List Char, '\n' ∉ body →
    encodeLiteral (decodeLiteral body) = body := by
  intro body
  induction body using decodeLiteral.induct with
  | case1 => exact fun _ => rfl
  | case2 rest ih =>
      intro h
      rw [decodeLiteral, encodeLiteral, if_pos (beq_self_eq_true _), ih]
      exact fun hm => h (List.mem_cons_of_mem _ (List.mem_cons_of_mem _ hm))
  | case3 c rest hc ih =>
      intro h
      rw [decodeLiteral]
      · rw [encodeLiteral, if_neg, ih]
        · exact fun hm => h (List.mem_cons_of_mem _ hm)
        · rw [beq_iff_eq]
          exact fun heq => h (heq ▸ List.mem_cons_self ..)
      · exact hc

/-- What is decoded begins with an `n` only where the written text does. -/
theorem decode_head {rest tail : List Char} (h : decodeLiteral rest = 'n' :: tail) :
    ∃ more, rest = 'n' :: more := by
  unfold decodeLiteral at h
  split at h
  · exact absurd h nofun
  · exact absurd (List.cons.inj h).1 (by decide)
  · next c more _ => exact ⟨more, by rw [(List.cons.inj h).1]⟩

/-- What is encoded begins with an `n` only where the text does. -/
theorem encode_head {rest tail : List Char} (h : encodeLiteral rest = 'n' :: tail) :
    ∃ more, rest = 'n' :: more := by
  cases rest with
  | nil => exact absurd h nofun
  | cons c rest =>
      rw [encodeLiteral] at h
      split at h
      · exact absurd (List.cons.inj h).1 (by decide)
      · exact ⟨rest, by rw [(List.cons.inj h).1]⟩

/-- What is decoded has no backslash before an `n`. -/
theorem decode_plain : ∀ body : List Char, ¬ ['\\', 'n'] <:+: decodeLiteral body := by
  intro body
  induction body using decodeLiteral.induct with
  | case1 => exact fun h => absurd (List.infix_nil.mp h) nofun
  | case2 rest ih =>
      rw [decodeLiteral, List.infix_cons_iff, not_or]
      exact ⟨fun h => absurd (List.cons_prefix_cons.mp h).1 (by decide), ih⟩
  | case3 c rest hc ih =>
      rw [decodeLiteral]
      · rw [List.infix_cons_iff, not_or]
        refine ⟨fun h => ?_, ih⟩
        obtain ⟨hslash, tail, htail⟩ := List.cons_prefix_cons.mp h
        -- a backslash that was kept had no `n` behind it, and decoding puts none there
        obtain ⟨more, hmore⟩ := decode_head htail.symm
        exact hc more hslash.symm hmore
      · exact hc

/-- A text that is meant is given back by encoding and decoding. -/
theorem decode_encode : ∀ literal : List Char, ¬ ['\\', 'n'] <:+: literal →
    decodeLiteral (encodeLiteral literal) = literal := by
  intro literal
  induction literal with
  | nil => exact fun _ => rfl
  | cons c rest ih =>
      intro h
      rw [List.infix_cons_iff, not_or] at h
      rw [encodeLiteral]
      by_cases hc : (c == '\n') = true
      · rw [if_pos hc, decodeLiteral, ih h.2, beq_iff_eq.mp hc]
      · rw [if_neg hc, decodeLiteral, ih h.2]
        intro more hslash hn
        -- a backslash that was there stays one: behind it no `n` is written that was not there
        obtain ⟨tail, htail⟩ := encode_head hn
        exact h.1 (List.cons_prefix_cons.mpr ⟨hslash.symm, tail, htail.symm⟩)

/-- What a written text means is what stands between its quotes, decoded. -/
theorem readLiteral_quoted {written : String} {body : List Char}
    (h : written.toList = '"' :: (body ++ ['"'])) :
    (readLiteral written).toList = decodeLiteral body := by
  rw [readLiteral, String.toList_ofList, h, betweenQuotes, List.drop_succ_cons, List.drop_zero,
    List.dropLast_concat]

end BasicSyntax.Text
