import BasicSyntax.Proofs.Token.Split

/-! # Longest matches — cutting a text loses nothing and takes the longest

    `Terminal.Matches k u rest` says what a terminal matches: its pattern fits `u`, where `rest`
    is behind it.  The patterns of names and of operators look ahead, the others do not.  Many
    terminals may match at one point, and a terminal in many lengths; `Terminal.Longest` is the
    match that is longer than every other.

    The scanner does not compare lengths: it takes the first terminal of an order.
    `longest_of_ends` says that what it takes is the longest match all the same, whatever
    follows.  `Tokens.Laid` is a text with its tokens and the filler between them, and
    `ofText_laid` puts the two together: the text is laid out in longest matches, up to its end
    or to the first point where nothing matches. -/

namespace BasicSyntax

open Text

namespace Terminal

/-- A terminal matches a text in front of another.  A name is no reserved word that no word
    character follows, nor does it begin with such; `<` is an operator where no minus follows. -/
def Matches (k : Terminal) (u rest : List Char) : Prop :=
  match k with
  | identifier =>
    (u ≠ [] ∧ (∀ c ∈ u, isWordChar c = true) ∧ ∀ c ∈ u.head?, isDecimalDigit c = false) ∧
      ∀ w ∈ reservedWords, ∀ more, u ++ rest = w ++ more → ¬ Breaks isWordChar more
  | operator => u ∈ operatorTexts ∧ (u = ['<'] → Breaks (· == '-') rest)
  | _ => k.Writes u

/-- A terminal matches a text in front of another; nothing longer matches there, and no other
    terminal matches as much. -/
structure Longest (k : Terminal) (u rest : List Char) : Prop where
  stands : k.Matches u rest
  longest : ∀ (k' : Terminal) (u' rest' : List Char), u' ++ rest' = u ++ rest →
    k'.Matches u' rest' → u'.length ≤ u.length
  only : ∀ (k' : Terminal) (u' rest' : List Char), u' ++ rest' = u ++ rest →
    k'.Matches u' rest' → u'.length = u.length → k' = k

variable {k k' : Terminal} {u u' rest rest' : List Char}

/-! ## Matches and spellings -/

/-- A text writes one terminal. -/
theorem Writes.unique (h : k.Writes u) (h' : k'.Writes u) : k = k' := by
  have hk := first?_eq h (ends_nil k u)
  rw [first?_eq h' (ends_nil k' u)] at hk
  exact (Prod.mk.inj (Option.some.inj hk)).1.symm

/-- A reserved word is written as a terminal of its own. -/
theorem reserved_writes : ∀ w ∈ reservedWords, ∃ k ∈ wordTerminals, k.Writes w := by
  intro w hw
  simp only [reservedWords, List.map_cons, List.map_nil, List.mem_cons, List.not_mem_nil,
    or_false] at hw
  rcases hw with rfl | rfl | rfl | rfl | rfl | rfl | rfl
  · exact ⟨funWord, by decide, rfl⟩
  · exact ⟨ifWord, by decide, rfl⟩
  · exact ⟨whileWord, by decide, rfl⟩
  · exact ⟨letWord, by decide, rfl⟩
  · exact ⟨elseWord, by decide, rfl⟩
  · exact ⟨macroWord, by decide, rfl⟩
  · exact ⟨underline, by decide, rfl⟩

/-- A terminal of a reserved word is written as one, and ends where the run of word characters
    does. -/
theorem word_writes (rest : List Char) (hk : k ∈ wordTerminals) (h : k.Writes u) :
    u ∈ reservedWords ∧ (k.Ends u rest ↔ Breaks isWordChar rest) := by
  simp only [wordTerminals, List.mem_cons, List.not_mem_nil, or_false] at hk
  rcases hk with rfl | rfl | rfl | rfl | rfl | rfl | rfl
  all_goals
    obtain rfl := Option.some.inj h
    exact ⟨by decide, Iff.rfl⟩

/-- What a terminal matches is written as it, or is a reserved word that goes on. -/
theorem Matches.writes (h : k.Matches u rest) : k.Writes u ∨
    k = identifier ∧ u ∈ reservedWords ∧ ¬ Breaks isWordChar rest := by
  cases k with
  | identifier =>
      obtain ⟨⟨hne, hword, hfirst⟩, hahead⟩ := h
      by_cases hr : u ∈ reservedWords
      · exact .inr ⟨rfl, hr, hahead u hr rest rfl⟩
      · exact .inl ⟨hne, hword, hfirst, hr⟩
  | operator => exact .inl h.1
  | _ => exact .inl h

/-- What a terminal matches is written as some terminal. -/
theorem Matches.written (h : k.Matches u rest) : ∃ k', Writes k' u := by
  rcases h.writes with h | ⟨-, hr, -⟩
  · exact ⟨k, h⟩
  · obtain ⟨k', -, hk'⟩ := reserved_writes u hr
    exact ⟨k', hk'⟩

/-- What is written and ends matches. -/
theorem Writes.matched (h : k.Writes u) (he : k.Ends u rest) : k.Matches u rest := by
  cases k with
  | identifier =>
      refine ⟨⟨h.nonempty, h.word, h.first⟩, fun w hw more heq hb => ?_⟩
      -- the run of word characters would be the name and the reserved word
      have hrun := takeWhile_breaks h.word he
      rw [heq, takeWhile_breaks (reserved_word w hw) hb] at hrun
      exact h.free (hrun ▸ hw)
  | operator => exact ⟨h, he⟩
  | _ => exact h

/-! ## The longest match -/

/-- A run that breaks is the longest text of its class. -/
theorem run_longest {class? : Char → Bool} (hb : Breaks class? rest)
    (hall : ∀ c ∈ u', class? c = true) (heq : u' ++ rest' = u ++ rest) :
    u'.length ≤ u.length := by
  rcases List.append_eq_append_iff.mp heq with ⟨a, ha, -⟩ | ⟨a, ha, hrest⟩
  · rw [ha, List.length_append]
    omega
  · cases a with
    | nil => exact Nat.le_of_eq (congrArg List.length (ha.trans (List.append_nil u)))
    | cons d a =>
        rw [hrest] at hb
        have hd := hall d (ha ▸ List.mem_append_right _ (List.mem_cons_self ..))
        rw [show class? d = false from hb] at hd
        exact Bool.noConfusion hd

/-- Texts that are not empty and begin one text have one first character. -/
theorem head?_eq (h : u ≠ []) (h' : u' ≠ []) (heq : u' ++ rest' = u ++ rest) :
    u'.head? = u.head? := by
  cases u with
  | nil => exact absurd rfl h
  | cons c u =>
      cases u' with
      | nil => exact absurd rfl h'
      | cons c' u' => rw [List.head?_cons, List.head?_cons, (List.cons.inj heq).1]

/-- Nothing that is written is longer than what is written and ends. -/
theorem Writes.longest (h : k.Writes u) (he : k.Ends u rest) (h' : k'.Writes u')
    (heq : u' ++ rest' = u ++ rest) : u'.length ≤ u.length := by
  have hhead := head?_eq (writes_nonempty h) (writes_nonempty h') heq
  rcases h.ended he with ⟨class?, hc, hall, hb⟩ | ⟨body, rfl, hbody⟩ | ⟨hs, hhalf⟩
  -- a run of a class: what begins in it stays in it
  · refine run_longest hb (hc k' u' h' fun c hhc => hall c ?_) heq
    rw [hhead] at hhc
    exact List.mem_of_mem_head? hhc
  -- a string: what begins with the quote is a string, and ends at the same quote
  · obtain ⟨body', rfl, hbody'⟩ := h'.quoted hhead
    rw [List.cons_append, List.cons_append, List.append_assoc, List.append_assoc] at heq
    have hlen : body'.length = body.length :=
      literalBody_length hbody' hbody (List.cons.inj heq).2
    simp only [List.length_cons, List.length_append, hlen, Nat.le_refl]
  -- a symbol: only one that begins with it is longer, and then it would not end
  · rcases symbol_pair u hs u' (h'.symbol hs hhead) hhead with rfl | hlong | ⟨half, hh, hu, hu'⟩
    · exact Nat.le_refl _
    · obtain ⟨d, -, rfl⟩ := List.mem_map.mp hlong
      rw [List.length_append]
      omega
    · have hb := hhalf half hh hu
      rw [hu', List.append_assoc] at heq
      rw [← List.append_cancel_left heq] at hb
      replace hb : (half.2 == half.2) = false := hb
      rw [beq_self_eq_true] at hb
      exact Bool.noConfusion hb

/-- **LONGEST**: what is written and ends is the longest match where it stands, and the only
    one of its length. -/
theorem longest_of_ends (h : k.Writes u) (he : k.Ends u rest) : k.Longest u rest := by
  refine ⟨h.matched he, fun k' u' rest' heq h' => ?_, fun k' u' rest' heq h' hlen => ?_⟩
  · obtain ⟨k'', hk''⟩ := h'.written
    exact h.longest he hk'' heq
  · obtain ⟨rfl, rfl⟩ := List.append_inj heq hlen
    rcases h'.writes with h' | ⟨-, hr, hgoes⟩
    · exact h'.unique h
    -- a reserved word that goes on does not end
    · obtain ⟨k'', hk'', hw⟩ := reserved_writes u' hr
      obtain rfl := h.unique hw
      exact absurd ((word_writes _ hk'' h).2.mp he) hgoes

/-- There is one longest match at a point. -/
theorem Longest.unique (h : k.Longest u rest) (h' : k'.Longest u' rest')
    (heq : u' ++ rest' = u ++ rest) : k' = k ∧ u' = u := by
  have hlen : u'.length = u.length :=
    Nat.le_antisymm (h.longest k' u' rest' heq h'.stands) (h'.longest k u rest heq.symm h.stands)
  exact ⟨h.only k' u' rest' heq h'.stands hlen, (List.append_inj heq hlen).1⟩

/-- Where a terminal matches, one is taken. -/
theorem Matches.first? (h : k.Matches u rest) : Terminal.first? (u ++ rest) ≠ none := by
  obtain ⟨k', hk'⟩ := h.written
  exact hk'.first? rest

/-! ## What words, `<-` and `->` are -/

/-- At a run of word characters that is a name, the longest match is that name. -/
theorem Longest.name (h : k.Longest u rest)
    (hrun : IsName ((u ++ rest).takeWhile isWordChar)) :
    k = identifier ∧ u = (u ++ rest).takeWhile isWordChar := by
  obtain ⟨more, heq, -, hb⟩ := takeWhile_split isWordChar (u ++ rest)
  obtain ⟨hk, hu⟩ := (longest_of_ends (k := identifier) hrun hb).unique h heq
  exact ⟨hk, hu⟩

/-- At a run of word characters that is a reserved word, the longest match is that word. -/
theorem Longest.reserved (h : k.Longest u rest)
    (hrun : (u ++ rest).takeWhile isWordChar ∈ reservedWords) :
    k ∈ wordTerminals ∧ u = (u ++ rest).takeWhile isWordChar := by
  obtain ⟨more, heq, -, hb⟩ := takeWhile_split isWordChar (u ++ rest)
  obtain ⟨k', hk', hw⟩ := reserved_writes _ hrun
  obtain ⟨rfl, hu⟩ := (longest_of_ends hw ((word_writes more hk' hw).2.mpr hb)).unique h heq
  exact ⟨hk', hu⟩

/-- The longest match is a reserved word exactly where the run of word characters is one, and
    then it is that run. -/
theorem Longest.word_iff (h : k.Longest u rest) :
    (k ∈ wordTerminals ↔ (u ++ rest).takeWhile isWordChar ∈ reservedWords) ∧
      (k ∈ wordTerminals → u = (u ++ rest).takeWhile isWordChar) := by
  have hrun : k ∈ wordTerminals → (u ++ rest).takeWhile isWordChar ∈ reservedWords := by
    intro hk
    have hnotname : k ≠ identifier := by
      rintro rfl
      exact absurd hk (by decide)
    have hw : k.Writes u := h.stands.writes.resolve_right fun hi => hnotname hi.1
    have hr : u ∈ reservedWords := (word_writes rest hk hw).1
    refine Decidable.byContradiction fun hno => ?_
    -- the run begins with the word, so it would be a name
    have hname : IsName ((u ++ rest).takeWhile isWordChar) := by
      rw [List.takeWhile_append_of_pos (reserved_word u hr)] at hno ⊢
      obtain ⟨-, -, hall, -⟩ := takeWhile_split isWordChar rest
      refine ⟨List.append_ne_nil_of_left_ne_nil (writes_nonempty hw) _,
        List.forall_mem_append.mpr ⟨reserved_word u hr, hall⟩, ?_, hno⟩
      intro c hc
      refine reserved_first u hr c ?_
      cases u with
      | nil => exact absurd rfl (writes_nonempty hw)
      | cons d u => exact hc
    exact hnotname (h.name hname).1
  exact ⟨⟨hrun, fun hr => (h.reserved hr).1⟩, fun hk => (h.reserved (hrun hk)).2⟩

/-- An arrow to the left is one operator, and an arrow to the right one token. -/
theorem Longest.arrows (h : k.Longest u rest) (more : List Char) :
    (u ++ rest = '<' :: '-' :: more → k = operator ∧ u = ['<', '-']) ∧
      (u ++ rest = '-' :: '>' :: more → k = arrow ∧ u = ['-', '>']) := by
  have hleft : Longest operator ['<', '-'] more :=
    longest_of_ends (show ['<', '-'] ∈ operatorTexts by decide) nofun
  have hright : Longest arrow ['-', '>'] more := longest_of_ends rfl trivial
  exact ⟨fun heq => hleft.unique h heq, fun heq => hright.unique h heq⟩

end Terminal

/-! ## Texts laid out -/

/-- A text from an offset on is tokens, each behind all the filler that stands there and each
    the longest match at its start, and what is left behind the last filler. -/
inductive Tokens.Laid : Nat → List Char → List Token → List Char → Prop
  | done {o : Nat} {left : List Char} (gap : List Char) : (∀ c ∈ gap, isFiller c = true) →
      Breaks isFiller left → Tokens.Laid o (gap ++ left) [] left
  | token {o : Nat} {p : Position} {u rest left : List Char} {k : Terminal} {ts : List Token}
      (gap : List Char) : (∀ c ∈ gap, isFiller c = true) → Breaks isFiller (u ++ rest) →
      k.Longest u rest → Tokens.Laid (o + gap.length + u.length) rest ts left →
      Tokens.Laid o (gap ++ (u ++ rest)) (⟨k, String.ofList u, o + gap.length, p⟩ :: ts) left

/-- One more character of filler in front. -/
theorem Tokens.Laid.filler {o : Nat} {c : Char} {text left : List Char} {ts : List Token}
    (hc : isFiller c = true) (h : Tokens.Laid (o + 1) text ts left) :
    Tokens.Laid o (c :: text) ts left := by
  cases h with
  | done gap hgap hb => exact .done (c :: gap) (List.forall_mem_cons.mpr ⟨hc, hgap⟩) hb
  | token gap hgap hb hk h =>
      have ho : o + 1 + gap.length = o + (c :: gap).length := by
        rw [List.length_cons]
        omega
      rw [ho] at h ⊢
      exact .token (c :: gap) (List.forall_mem_cons.mpr ⟨hc, hgap⟩) hb hk h

/-- Where a token stands there is no filler. -/
theorem Terminal.Writes.breaks {k : Terminal} {u : List Char} (hk : k ≠ .filler)
    (h : k.Writes u) (rest : List Char) : Breaks isFiller (u ++ rest) := by
  cases u with
  | nil => exact absurd rfl (writes_nonempty h)
  | cons c u =>
      refine Bool.eq_false_iff.mpr fun hc => ?_
      have hfill : Terminal.filler.Writes (c :: u) :=
        ⟨List.cons_ne_nil c u, uniform_filler k _ h fun d hd => Option.some.inj hd ▸ hc⟩
      exact hk (h.unique hfill)

/-- The tokens of a text lay it out; what is left is nothing, or begins with the character with
    which no terminal begins. -/
theorem Scan.laid {o : Nat} {p : Position} {text : List Char} {cut : Tokens}
    (h : Scan o p text cut) : ∃ left, Tokens.Laid o text cut.tokens left ∧
      (left = [] ∧ cut.stray = none ∨ ∃ c more p', left = c :: more ∧
        cut.stray = some ⟨c, o + text.length - left.length, p'⟩ ∧
          Terminal.first? left = none) := by
  induction h with
  | done o p => exact ⟨[], .done [] nofun trivial, .inl ⟨rfl, rfl⟩⟩
  | @filler o p c rest cut hc _ ih =>
      obtain ⟨left, hl, hend⟩ := ih
      refine ⟨left, hl.filler hc, ?_⟩
      rw [List.length_cons, Nat.add_comm rest.length, ← Nat.add_assoc]
      exact hend
  | @token o p k u rest cut hk hu he _ ih =>
      obtain ⟨left, hl, hend⟩ := ih
      refine ⟨left, .token [] nofun (hu.breaks hk rest)
        (Terminal.longest_of_ends hu he) hl, ?_⟩
      rw [List.length_append, ← Nat.add_assoc]
      exact hend
  | @stray o p c rest hf =>
      refine ⟨c :: rest, .done [] nofun ?_, .inr ⟨c, rest, p, rfl, ?_, hf⟩⟩
      -- filler would have been taken
      · refine Bool.eq_false_iff.mpr fun hc => ?_
        have hfill : Terminal.filler.Writes [c] :=
          ⟨List.cons_ne_nil c [], List.forall_mem_singleton.mpr hc⟩
        exact hfill.first? rest hf
      · rw [Nat.add_sub_cancel]

/-- **CUTTING**: every text is laid out in its tokens, each the longest match where it stands
    and the only one of its length, up to its end or to the first point where nothing matches.
    So a reserved word is a token of its own exactly where it is the whole run of word
    characters, any other run that begins with no digit is a name, and `<-` and `->` are never
    cut in two. -/
theorem Tokens.ofText_laid (text : List Char) :
    (∃ left, Tokens.Laid 0 text (ofText text).tokens left ∧
      (left = [] ∧ (ofText text).stray = none ∨ ∃ c more p, left = c :: more ∧
        (ofText text).stray = some ⟨c, text.length - left.length, p⟩ ∧
          ∀ (k : Terminal) (u rest : List Char), u ++ rest = left → ¬ k.Matches u rest)) ∧
    ∀ (k : Terminal) (u rest : List Char), k.Longest u rest →
      (k ∈ wordTerminals ↔ (u ++ rest).takeWhile isWordChar ∈ reservedWords) ∧
      (k ∈ wordTerminals → u = (u ++ rest).takeWhile isWordChar) ∧
      (IsName ((u ++ rest).takeWhile isWordChar) →
        k = .identifier ∧ u = (u ++ rest).takeWhile isWordChar) ∧
      ∀ more, (u ++ rest = '<' :: '-' :: more → k = .operator ∧ u = ['<', '-']) ∧
        (u ++ rest = '-' :: '>' :: more → k = .arrow ∧ u = ['-', '>']) := by
  constructor
  · obtain ⟨left, hl, hend⟩ := (scan_ofText text).laid
    refine ⟨left, hl, hend.imp_right ?_⟩
    rintro ⟨c, more, p, hleft, hstray, hnone⟩
    rw [Nat.zero_add] at hstray
    refine ⟨c, more, p, hleft, hstray, ?_⟩
    rintro k u rest rfl hm
    exact hm.first? hnone
  · intro k u rest h
    exact ⟨h.word_iff.1, h.word_iff.2, h.name, h.arrows⟩

/-- A reserved word before a blank is a token of its own. -/
theorem Tokens.ofText_laid_word :
    Terminal.ifWord.Longest ['i', 'f'] [' ', 'x'] ∧
      (['i', 'f'] ++ [' ', 'x']).takeWhile isWordChar ∈ reservedWords := by
  have h : Terminal.ifWord.Longest ['i', 'f'] [' ', 'x'] := Terminal.longest_of_ends rfl rfl
  exact ⟨h, ((ofText_laid ['i', 'f', ' ', 'x']).2 _ _ _ h).1.mp (by decide)⟩

end BasicSyntax
