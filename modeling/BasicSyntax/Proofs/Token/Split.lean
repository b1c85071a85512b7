import BasicSyntax.Proofs.Token.Scan

/-! # Splits — cutting a text in any way at all

    `Splits text` says that a text is a row of texts each of which writes a terminal or filler,
    however they were chosen.  The scanner always takes the longest piece, and `splits_iff`
    says that nothing is lost by it: where any way to split the text exists the scanner reaches
    the end.

    Only three things can be cut in more than one way.  A run of word characters stays a run
    whatever it is cut into; `==` and `->` may be cut in two halves, of which the second may
    also be part of what follows.  In each case what is behind the longest piece still splits. -/

namespace BasicSyntax

open Text

/-- A text is a row of terminals and filler. -/
inductive Splits : List Char → Prop
  | nil : Splits []
  | cons {k : Terminal} {u rest : List Char} : k.Writes u → Splits rest → Splits (u ++ rest)

/-- How terminals that are neither words nor numbers nor strings are written. -/
def symbolTexts : List (List Char) :=
  operatorTexts ++ separatorTexts ++
    ["->", "=", "-", "\x7b", "(", "[", "\x7d", ")", "]"].map String.toList

/-- The sorts of text that write terminals. -/
theorem Terminal.Writes.cases {k : Terminal} {u : List Char} (h : k.Writes u) :
    IsName u ∨ u ∈ reservedWords ∨ Terminal.number.Writes u ∨ Terminal.filler.Writes u ∨
      Terminal.string.Writes u ∨ u ∈ symbolTexts := by
  cases k with
  | identifier => exact .inl h
  | number => exact .inr (.inr (.inl h))
  | filler => exact .inr (.inr (.inr (.inl h)))
  | string => exact .inr (.inr (.inr (.inr (.inl h))))
  | operator =>
      refine .inr (.inr (.inr (.inr (.inr ?_))))
      exact List.mem_append_left _ (List.mem_append_left _ h)
  | separator =>
      refine .inr (.inr (.inr (.inr (.inr ?_))))
      exact List.mem_append_left _ (List.mem_append_right _ h)
  | endOfInput => exact absurd h nofun
  | macroWord => exact .inr (.inl (Option.some.inj h ▸ by decide))
  | whileWord => exact .inr (.inl (Option.some.inj h ▸ by decide))
  | elseWord => exact .inr (.inl (Option.some.inj h ▸ by decide))
  | funWord => exact .inr (.inl (Option.some.inj h ▸ by decide))
  | letWord => exact .inr (.inl (Option.some.inj h ▸ by decide))
  | ifWord => exact .inr (.inl (Option.some.inj h ▸ by decide))
  | underline => exact .inr (.inl (Option.some.inj h ▸ by decide))
  | _ =>
      refine .inr (.inr (.inr (.inr (.inr ?_))))
      exact Option.some.inj h ▸ by decide

/-- A piece that does not begin as a word does is filler, a string or a symbol. -/
theorem Terminal.Writes.nonword {k : Terminal} {u : List Char} (hu : k.Writes u) {c : Char}
    (hc : u.head? = some c) (hw : isWordChar c = false) :
    Terminal.filler.Writes u ∨ Terminal.string.Writes u ∨ u ∈ symbolTexts := by
  have hno : ¬ ∀ d ∈ u, isWordChar d = true := by
    intro hall
    rw [hall c (List.mem_of_mem_head? hc)] at hw
    exact Bool.noConfusion hw
  rcases hu.cases with h | h | h | h
  · exact absurd h.word hno
  · exact absurd (reserved_word u h) hno
  · exact absurd (fun d hd => isWordChar_digit (h.2 d hd)) hno
  · exact h

/-- A symbol begins with a character of no other sort of text. -/
theorem symbol_head : ∀ u ∈ symbolTexts, ∀ c ∈ u.head?,
    isWordChar c = false ∧ isFiller c = false ∧ c ≠ '"' := by
  have hall : ∀ u ∈ symbolTexts,
      (u.head?.map fun c => (isWordChar c, isFiller c, c == '"')) =
        some (false, false, false) := by decide
  intro u hu c hc
  have h := hall u hu
  rw [Option.mem_def.mp hc] at h
  obtain ⟨hw, hrest⟩ := Prod.mk.inj (Option.some.inj h)
  obtain ⟨hf, hq⟩ := Prod.mk.inj hrest
  exact ⟨hw, hf, beq_eq_false_iff_ne.mp hq⟩

/-! ## Runs -/

/-- What begins with a character of the class consists of such. -/
def Uniform (class? : Char → Bool) : Prop :=
  ∀ (k : Terminal) (u : List Char), k.Writes u → (∀ c ∈ u.head?, class? c = true) →
    ∀ c ∈ u, class? c = true

/-- Where a run of a class ends is a place to split, whatever the run is cut into. -/
theorem Splits.run {class? : Char → Bool} (hc : Uniform class?) {text : List Char}
    (h : Splits text) : ∀ u rest : List Char, text = u ++ rest →
      (∀ c ∈ u, class? c = true) → Breaks class? rest → Splits rest := by
  induction h with
  | nil =>
      intro u rest heq _ _
      rw [(List.append_eq_nil_iff.mp heq.symm).2]
      exact .nil
  | @cons k w tail hw ht ih =>
      intro u rest heq hu hb
      cases u with
      | nil =>
          rw [show rest = w ++ tail from heq.symm]
          exact .cons hw ht
      | cons c u =>
          have hall : ∀ d ∈ w, class? d = true := by
            refine hc k w hw ?_
            intro d hd
            cases w with
            | nil => exact absurd hd nofun
            | cons e w =>
                rw [← Option.some.inj (show some e = some d from hd), (List.cons.inj heq).1]
                exact hu c (List.mem_cons_self ..)
          -- the run goes on behind the first piece, or both end together: all of the piece is
          -- of the class, and what breaks the run is not
          rcases List.append_eq_append_iff.mp heq with ⟨a, ha, htail⟩ | ⟨a, ha, hrest⟩
          · refine ih a rest htail ?_ hb
            intro d hd
            exact hu d (ha ▸ List.mem_append_right w hd)
          · cases a with
            | nil =>
                rw [show rest = tail from hrest]
                exact ht
            | cons d a =>
                rw [hrest] at hb
                have hd := hall d (ha ▸ List.mem_append_right _ (List.mem_cons_self ..))
                rw [show class? d = false from hb] at hd
                exact Bool.noConfusion hd

theorem uniform_word : Uniform isWordChar := by
  intro k u hu hh
  rcases hu.cases with h | h | h | h | h | h
  · exact h.word
  · exact reserved_word u h
  · exact fun c hc => isWordChar_digit (h.2 c hc)
  · cases u with
    | nil => exact absurd rfl h.1
    | cons c u =>
        have hc := (class_filler (h.2 c (List.mem_cons_self ..))).2.1
        rw [hh c rfl] at hc
        exact Bool.noConfusion hc
  · obtain ⟨body, rfl, -⟩ := h
    exact absurd (hh '"' rfl) (by decide)
  · cases u with
    | nil => exact nofun
    | cons c u =>
        have hc := (symbol_head _ h c rfl).1
        rw [hh c rfl] at hc
        exact Bool.noConfusion hc

theorem uniform_digit : Uniform Char.isDigit := by
  intro k u hu hh
  cases u with
  | nil => exact nofun
  | cons c u =>
      have hc : c.isDigit = true := hh c rfl
      rcases hu.cases with h | h | h | h | h | h
      · have hd := h.first c rfl
        rw [isDecimalDigit_digit hc] at hd
        exact Bool.noConfusion hd
      · have hd := reserved_first _ h c rfl
        rw [isDecimalDigit_digit hc] at hd
        exact Bool.noConfusion hd
      · exact h.2
      · rw [(class_filler (h.2 c (List.mem_cons_self ..))).1] at hc
        exact Bool.noConfusion hc
      · obtain ⟨body, heq, -⟩ := h
        rw [(List.cons.inj heq).1] at hc
        exact absurd hc (by decide)
      · have hw := (symbol_head _ h c rfl).1
        rw [isWordChar_digit hc] at hw
        exact Bool.noConfusion hw

theorem uniform_filler : Uniform isFiller := by
  intro k u hu hh
  cases u with
  | nil => exact nofun
  | cons c u =>
      have hc : isFiller c = true := hh c rfl
      obtain ⟨-, hnw, hnq⟩ := class_filler hc
      rcases hu.nonword rfl hnw with h | h | h
      · exact h.2
      · obtain ⟨body, heq, -⟩ := h
        exact absurd (List.cons.inj heq).1 hnq
      · rw [(symbol_head _ h c rfl).2.1] at hc
        exact Bool.noConfusion hc

/-! ## What a terminal ends at -/

/-- A piece that begins with a quote is a string. -/
theorem Terminal.Writes.quoted {k : Terminal} {w : List Char} (hw : k.Writes w)
    (hh : w.head? = some '"') : Terminal.string.Writes w := by
  rcases hw.nonword hh (by decide) with h | h | h
  · exact absurd (h.2 '"' (List.mem_of_mem_head? hh)) (by decide)
  · exact h
  · exact absurd rfl (symbol_head _ h '"' hh).2.2

/-- Strings at one point end at the first quote that closes. -/
theorem literalBody_length {body body' rest rest' : List Char}
    (hb : isLiteralBody body = true) (hb' : isLiteralBody body' = true)
    (heq : body ++ '"' :: rest = body' ++ '"' :: rest') : body.length = body'.length := by
  have h := Lexeme.closingQuote?_eq 0 rest hb
  rw [heq, Lexeme.closingQuote?_eq 0 rest' hb'] at h
  have := Option.some.inj h
  omega

/-- Symbols that are the first half of a longer one, with the other half. -/
def halves : List (List Char × Char) := [(['<'], '-'), (['='], '='), (['-'], '>')]

/-- **WHERE A TERMINAL ENDS**: it is a run of a class that goes no further, or a string, or a
    symbol that is not the first half of what stands there. -/
theorem Terminal.Writes.ended {k : Terminal} {u rest : List Char} (hu : k.Writes u)
    (he : k.Ends u rest) :
    (∃ class?, Uniform class? ∧ (∀ c ∈ u, class? c = true) ∧ Breaks class? rest) ∨
    (∃ body, u = '"' :: (body ++ ['"']) ∧ isLiteralBody body = true) ∨
    u ∈ symbolTexts ∧ ∀ h ∈ halves, h.1 = u → Breaks (· == h.2) rest := by
  have hword : u ∈ reservedWords → Breaks isWordChar rest →
      ∃ class?, Uniform class? ∧ (∀ c ∈ u, class? c = true) ∧ Breaks class? rest := by
    intro hr hb
    exact ⟨isWordChar, uniform_word, reserved_word u hr, hb⟩
  -- symbols that are no half of another ask for nothing behind them
  have hsymbol : ∀ w, u = w → w ∈ symbolTexts → (∀ h ∈ halves, h.1 ≠ w) →
      u ∈ symbolTexts ∧ ∀ h ∈ halves, h.1 = u → Breaks (· == h.2) rest := by
    rintro w rfl hw hno
    exact ⟨hw, fun h hh heq => absurd heq (hno h hh)⟩
  cases k with
  | filler => exact .inl ⟨isFiller, uniform_filler, hu.2, he⟩
  | identifier => exact .inl ⟨isWordChar, uniform_word, hu.word, he⟩
  | number => exact .inl ⟨Char.isDigit, uniform_digit, hu.2, he⟩
  | string => exact .inr (.inl hu)
  | operator =>
      have hhalf : ∀ w ∈ operatorTexts, ∀ h ∈ halves, h.1 = w → w = ['<'] ∧ h.2 = '-' := by
        decide
      refine .inr (.inr ⟨List.mem_append_left _ (List.mem_append_left _ hu), ?_⟩)
      intro half hh heq
      obtain ⟨hlt, hminus⟩ := hhalf u hu half hh heq
      rw [hminus]
      exact he hlt
  | separator =>
      have hno : ∀ w ∈ separatorTexts, ∀ h ∈ halves, h.1 ≠ w := by decide
      exact .inr (.inr (hsymbol u rfl
        (List.mem_append_left _ (List.mem_append_right _ hu)) (hno u hu)))
  | equals =>
      obtain rfl := Option.some.inj hu
      have hhalf : ∀ h ∈ halves, h.1 = "=".toList → h.2 = '=' := by decide
      refine .inr (.inr ⟨by decide, fun half hh heq => ?_⟩)
      rw [hhalf half hh heq]
      exact he
  | minus =>
      obtain rfl := Option.some.inj hu
      have hhalf : ∀ h ∈ halves, h.1 = "-".toList → h.2 = '>' := by decide
      refine .inr (.inr ⟨by decide, fun half hh heq => ?_⟩)
      rw [hhalf half hh heq]
      exact he
  | macroWord => exact .inl (hword (Option.some.inj hu ▸ by decide) he)
  | whileWord => exact .inl (hword (Option.some.inj hu ▸ by decide) he)
  | elseWord => exact .inl (hword (Option.some.inj hu ▸ by decide) he)
  | funWord => exact .inl (hword (Option.some.inj hu ▸ by decide) he)
  | letWord => exact .inl (hword (Option.some.inj hu ▸ by decide) he)
  | ifWord => exact .inl (hword (Option.some.inj hu ▸ by decide) he)
  | underline => exact .inl (hword (Option.some.inj hu ▸ by decide) he)
  | endOfInput => exact absurd hu nofun
  | _ => exact .inr (.inr (hsymbol _ (Option.some.inj hu).symm (by decide) (by decide)))

/-! ## What is behind the longest piece -/

/-- A first piece that begins as a symbol does is one. -/
theorem Terminal.Writes.symbol {k : Terminal} {w : List Char} (hw : k.Writes w) {u : List Char}
    (hu : u ∈ symbolTexts) (hh : w.head? = u.head?) : w ∈ symbolTexts := by
  cases w with
  | nil => exact absurd rfl (Terminal.writes_nonempty hw)
  | cons c w =>
      obtain ⟨hword, hfill, hquote⟩ := symbol_head u hu c hh.symm
      rcases hw.nonword rfl hword with h | h | h
      · rw [h.2 c (List.mem_cons_self ..)] at hfill
        exact Bool.noConfusion hfill
      · obtain ⟨body, heq, -⟩ := h
        exact absurd (List.cons.inj heq).1 hquote
      · exact h

/-- The first piece of a text that is not empty. -/
theorem Splits.first {c : Char} {rest : List Char} (h : Splits (c :: rest)) :
    ∃ (k : Terminal) (w tail : List Char), c :: rest = w ++ tail ∧ w.head? = some c ∧
      k.Writes w ∧ Splits tail := by
  generalize heq : c :: rest = text at h
  cases h with
  | nil => exact absurd heq nofun
  | @cons k w tail hw ht =>
      refine ⟨k, w, tail, rfl, ?_, hw, ht⟩
      cases w with
      | nil => exact absurd rfl (Terminal.writes_nonempty hw)
      | cons d w => rw [← (List.cons.inj heq).1, List.head?_cons]

/-- Two symbols at one point are the same, or one is half of the other. -/
theorem symbol_pair : ∀ u ∈ symbolTexts, ∀ w ∈ symbolTexts, w.head? = u.head? →
    u = w ∨ u ∈ ['-', '=', '>'].map (fun d => w ++ [d]) ∨
      ∃ h ∈ halves, h.1 = u ∧ w = u ++ [h.2] := by decide

/-- Behind the second half of a symbol the text splits, if it does before it. -/
theorem Splits.half {d : Char} {rest : List Char} (hd : d ∈ ['-', '=', '>'])
    (h : Splits (d :: rest)) : Splits rest := by
  have hone : [d] ∈ [['-'], ['='], ['>']] := List.mem_map_of_mem (f := fun c => [c]) hd
  have hsym : [['-'], ['='], ['>']] ⊆ symbolTexts := by decide
  -- the first piece is the half by itself, or the half with `>` or `=` behind it
  have hpair : ∀ v ∈ [['-'], ['='], ['>']], ∀ w ∈ symbolTexts, w.take 1 = v →
      w = v ∨ w = v ++ ['>'] ∨ w = v ++ ['='] := by decide
  obtain ⟨k, w, tail, heq, hh, hw, ht⟩ := h.first
  have htake : w.take 1 = [d] := by
    obtain ⟨more, rfl⟩ := List.head?_eq_some_iff.mp hh
    rfl
  rcases hpair _ hone w (hw.symbol (hsym hone) hh) htake with rfl | rfl | rfl
  · rw [(List.cons.inj heq).2]
    exact ht
  · rw [(List.cons.inj heq).2]
    exact .cons (u := ['>']) (k := .operator) (show ['>'] ∈ operatorTexts by decide) ht
  · rw [(List.cons.inj heq).2]
    exact .cons (u := ['=']) (k := .equals) rfl ht

/-- What is behind a symbol that does not go on splits, if the text from the symbol on does. -/
theorem Splits.symbol {u rest : List Char} (hu : u ∈ symbolTexts)
    (he : ∀ h ∈ halves, h.1 = u → Breaks (· == h.2) rest) (h : Splits (u ++ rest)) :
    Splits rest := by
  cases u with
  | nil => exact absurd hu (by decide)
  | cons c u =>
      obtain ⟨k, w, tail, heq, hh, hw, ht⟩ := Splits.first h
      replace heq : (c :: u) ++ rest = w ++ tail := heq
      -- the first piece is this symbol, half of it, or a longer one of which this is half
      rcases symbol_pair _ hu w (hw.symbol hu hh) hh with hs | hs | ⟨⟨v, d⟩, hd, hv, hs⟩
      · rw [hs] at heq
        rw [List.append_cancel_left heq]
        exact ht
      · obtain ⟨d, hd, hlong⟩ := List.mem_map.mp hs
        rw [← hlong, List.append_assoc] at heq
        have htail := List.append_cancel_left heq
        rw [← htail] at ht
        exact Splits.half hd ht
      · rw [hs, List.append_assoc] at heq
        have hrest := List.append_cancel_left heq
        have hb := he _ hd hv
        rw [hrest] at hb
        replace hb : (d == d) = false := hb
        rw [beq_self_eq_true] at hb
        exact Bool.noConfusion hb

/-- What is behind a string splits, if the text from the string on does. -/
theorem Splits.string {body rest : List Char} (hb : isLiteralBody body = true)
    (h : Splits ('"' :: (body ++ '"' :: rest))) : Splits rest := by
  obtain ⟨k, w, tail, heq, hh, hw, ht⟩ := h.first
  obtain ⟨body', rfl, hb'⟩ := hw.quoted hh
  rw [List.cons_append, List.append_assoc, List.singleton_append] at heq
  have heq' := (List.cons.inj heq).2
  have hlen := literalBody_length hb hb' heq'
  rw [(List.cons.inj (List.append_inj heq' hlen).2).2]
  exact ht

/-- What is behind filler splits, if the text from the filler on does. -/
theorem Splits.filler {c : Char} {rest : List Char} (hc : isFiller c = true)
    (h : Splits (c :: rest)) : Splits rest := by
  obtain ⟨k, w, tail, heq, hh, hw, ht⟩ := h.first
  obtain ⟨-, hnw, hnq⟩ := class_filler hc
  cases w with
  | nil => exact absurd hh nofun
  | cons d w =>
      obtain rfl : d = c := Option.some.inj hh
      rw [(List.cons.inj heq).2]
      rcases hw.nonword rfl hnw with h | h | h
      · cases w with
        | nil => exact ht
        | cons e w =>
            exact .cons (k := .filler)
              ⟨List.cons_ne_nil e w, fun b hb => h.2 b (List.mem_cons_of_mem _ hb)⟩ ht
      · obtain ⟨body, hs, -⟩ := h
        exact absurd (List.cons.inj hs).1 hnq
      · rw [(symbol_head _ h d rfl).2.1] at hc
        exact Bool.noConfusion hc

/-- **LONGEST PIECE**: what is behind a terminal that ends there splits, if the text from the
    terminal on does. -/
theorem Splits.behind {k : Terminal} {u rest : List Char} (hu : k.Writes u)
    (he : k.Ends u rest) (h : Splits (u ++ rest)) : Splits rest := by
  rcases hu.ended he with ⟨class?, hc, hall, hb⟩ | ⟨body, rfl, hb⟩ | ⟨hs, hhalf⟩
  · exact h.run hc u rest rfl hall hb
  · rw [List.cons_append, List.append_assoc, List.singleton_append] at h
    exact h.string hb
  · exact h.symbol hs hhalf

/-! ## Splitting and scanning -/

theorem Terminal.first?_ne_none {text : List Char} {k : Terminal} {n : Nat} (hk : k ∈ order)
    (hlen : k.length? text = some n) : first? text ≠ none := by
  intro hnone
  have h := List.findSome?_eq_none_iff.mp hnone k hk
  rw [hlen] at h
  exact nomatch h

theorem Lexeme.fixed?_self (u rest : List Char) : fixed? u (u ++ rest) = some u.length := by
  rw [fixed?, if_pos (List.isPrefixOf_iff_prefix.mpr ⟨rest, rfl⟩)]

/-- A terminal of one spelling matches where it is written. -/
theorem Terminal.first?_spelled {k : Terminal} {u : List Char}
    (hu : k.spelling?.map String.toList = some u) (rest : List Char) :
    first? (u ++ rest) ≠ none := by
  have hlen : k ∈ order ∧ k.length? (u ++ rest) = some u.length := by
    cases k
    case macroWord | whileWord | elseWord | funWord | letWord | ifWord | underline | arrow |
        equals | minus | openBrace | openParen | openSquare | closeBrace | closeParen |
        closeSquare =>
      obtain rfl := Option.some.inj hu
      exact ⟨by decide, Lexeme.fixed?_self _ rest⟩
    all_goals exact absurd hu nofun
  exact first?_ne_none hlen.1 hlen.2

/-- Where a name is written, a name or a reserved word is taken. -/
theorem Terminal.first?_name {u : List Char} (hu : IsName u) (rest : List Char) :
    first? (u ++ rest) ≠ none := by
  have hspelled : ∀ w ∈ reservedWords, ∃ k ∈ wordTerminals,
      k.spelling?.map String.toList = some w := by decide
  obtain ⟨more, heq, hall, hb⟩ := takeWhile_split isWordChar (u ++ rest)
  generalize hw : (u ++ rest).takeWhile isWordChar = w at heq hall
  cases u with
  | nil => exact absurd rfl hu.nonempty
  | cons c u =>
      rw [List.cons_append, List.takeWhile_cons_of_pos (hu.word c (List.mem_cons_self ..))] at hw
      rw [heq]
      -- the name may be cut short: the whole run of word characters is taken, or is reserved
      by_cases hr : w ∈ reservedWords
      · obtain ⟨k, -, hk⟩ := hspelled w hr
        exact first?_spelled hk more
      · have hname : IsName w := by
          rw [← hw] at hall hr ⊢
          exact ⟨List.cons_ne_nil _ _, hall, hu.first, hr⟩
        rw [first?_eq (k := .identifier) hname hb]
        exact nofun

/-- Where something is written, some terminal is taken. -/
theorem Terminal.Writes.first? {k : Terminal} {u : List Char} (hu : k.Writes u)
    (rest : List Char) : Terminal.first? (u ++ rest) ≠ none := by
  have hrun : ∀ (class? : Char → Bool), u ≠ [] → (∀ c ∈ u, class? c = true) →
      ∃ n, Lexeme.run? class? (u ++ rest) = some n := by
    intro class? hne hall
    cases u with
    | nil => exact absurd rfl hne
    | cons c u =>
        refine ⟨(c :: (u ++ rest).takeWhile class?).length, ?_⟩
        rw [Lexeme.run?, List.cons_append,
          List.takeWhile_cons_of_pos (hall c (List.mem_cons_self ..))]
  cases k with
  | identifier => exact first?_name hu rest
  | string =>
      rw [first?_eq hu trivial]
      exact Option.some_ne_none _
  | filler =>
      obtain ⟨n, hn⟩ := hrun isFiller hu.1 hu.2
      exact first?_ne_none (k := .filler) (by decide) hn
  | number =>
      obtain ⟨n, hn⟩ := hrun Char.isDigit hu.1 hu.2
      exact first?_ne_none (k := .number) (by decide) hn
  | operator =>
      by_cases hb : u = ['<'] → Breaks (· == '-') rest
      · rw [first?_operator hu hb]
        exact Option.some_ne_none _
      · obtain rfl := (Classical.not_imp.mp hb).1
        cases rest with
        | nil => exact absurd (fun _ => trivial) hb
        | cons c rest =>
            have hc : c = '-' := by simpa [Breaks] using hb
            rw [hc]
            exact first?_ne_none (k := .operator) (n := 2) (by decide) rfl
  | separator =>
      rw [first?_eq hu trivial]
      exact Option.some_ne_none _
  | endOfInput => exact absurd (Eq.symm hu) (Option.some_ne_none u)
  | _ => exact first?_spelled hu rest

theorem Scan.splits_iff {o : Nat} {p : Position} {text : List Char} {c : Tokens}
    (h : Scan o p text c) : Splits text ↔ c.stray = none := by
  induction h with
  | done o p => exact ⟨fun _ => rfl, fun _ => .nil⟩
  | @filler o p d rest cut hd _ ih =>
      rw [← ih]
      constructor
      · intro h
        exact h.filler hd
      · intro h
        refine .cons (k := .filler) (u := [d]) ⟨List.cons_ne_nil d [], ?_⟩ h
        intro e he
        rw [List.mem_singleton.mp he]
        exact hd
  | @token o p k u rest cut _ hu he _ ih =>
      show _ ↔ cut.stray = none
      rw [← ih]
      constructor
      · intro h
        exact h.behind hu he
      · intro h
        exact .cons hu h
  | @stray o p d rest hf =>
      refine iff_of_false ?_ nofun
      intro h
      obtain ⟨k, w, tail, heq, -, hw, -⟩ := h.first
      rw [heq] at hf
      exact hw.first? tail hf

/-- **SPLITTING**: the scanner reaches the end of a text if the text splits in any way. -/
theorem splits_iff (text : List Char) : Splits text ↔ (Tokens.ofText text).stray = none :=
  (scan_ofText text).splits_iff

end BasicSyntax
