import BasicSyntax.Terminal.Lexeme

/-! # Lexemes — what stands at the front of a text, and up to where

    `Terminal.Writes k u` says that `u` is one way to write the terminal `k`, looking at nothing
    but `u`.  `Terminal.Ends k u rest` says what must not follow for `u` to be the whole of it: a
    word goes on over word characters, a number over digits, and a few symbols are the first
    half of a longer one.

    Together they are exactly what the scanner looks for: `first?_writes` and `first?_eq` read
    the terminal at the front of a text off the text, with no order of trials. -/

namespace BasicSyntax

open Text

/-- No character of the class comes next. -/
def Breaks (class? : Char → Bool) : List Char → Prop
  | [] => True
  | c :: _ => class? c = false

/-- A text is a name: word characters of which the first is no digit, but no reserved word. -/
structure IsName (u : List Char) : Prop where
  nonempty : u ≠ []
  word : ∀ c ∈ u, isWordChar c = true
  first : ∀ c ∈ u.head?, isDecimalDigit c = false
  free : u ∉ reservedWords

/-- A text may stand between quotes: a backslash is followed by a character other than the
    newline, and no other quote, backslash or newline is in it. -/
def isLiteralBody : List Char → Bool
  | [] => true
  | '\\' :: c :: rest => c != '\n' && isLiteralBody rest
  | c :: rest => c != '"' && c != '\\' && c != '\n' && isLiteralBody rest

/-- How the operators other than the minus are written. -/
def operatorTexts : List (List Char) :=
  ["<-", "==", "!=", "<", "+", "*", "/", "%", ">"].map String.toList

/-- How separators are written. -/
def separatorTexts : List (List Char) := [[';'], ['\n']]

/-- The terminals that are a reserved word. -/
def wordTerminals : List Terminal :=
  [.macroWord, .whileWord, .elseWord, .funWord, .letWord, .ifWord, .underline]

namespace Terminal

/-- A text is one way to write a terminal. -/
def Writes (k : Terminal) (u : List Char) : Prop :=
  match k with
  | identifier => IsName u
  | string => ∃ body, u = '"' :: (body ++ ['"']) ∧ isLiteralBody body = true
  | filler => u ≠ [] ∧ ∀ c ∈ u, isFiller c = true
  | number => u ≠ [] ∧ ∀ c ∈ u, c.isDigit = true
  | operator => u ∈ operatorTexts
  | separator => u ∈ separatorTexts
  | _ => k.spelling?.map String.toList = some u

/-- What follows a text does not make it part of a longer terminal. -/
def Ends (k : Terminal) (u rest : List Char) : Prop :=
  match k with
  | identifier | macroWord | whileWord | elseWord | funWord | letWord | ifWord | underline =>
    Breaks isWordChar rest
  | filler => Breaks isFiller rest
  | number => Breaks Char.isDigit rest
  | operator => u = ['<'] → Breaks (· == '-') rest
  | equals => Breaks (· == '=') rest
  | minus => Breaks (· == '>') rest
  | _ => True

end Terminal

/-! ## Classes of characters -/

/-- Filler belongs to no other class. -/
theorem class_filler {c : Char} (h : isFiller c = true) :
    c.isDigit = false ∧ isWordChar c = false ∧ c ≠ '"' := by
  simp only [isFiller, Bool.or_eq_true, beq_iff_eq] at h
  rcases h with (((rfl | rfl) | rfl) | rfl) | rfl <;> decide

theorem digit_ascii {c : Char} (h : c.isDigit = true) : c.toNat < 128 := by
  simp only [Char.isDigit, Bool.and_eq_true, decide_eq_true_eq] at h
  have hle : c.val.toNat ≤ 57 := h.2
  show c.val.toNat < 128
  omega

theorem isWordChar_digit {c : Char} (h : c.isDigit = true) : isWordChar c = true := by
  rw [isWordChar, if_pos (digit_ascii h), Char.isAlphanum, h, Bool.or_true]
  rfl

/-- A digit of a number is a decimal digit among those of all scripts. -/
theorem isDecimalDigit_digit {c : Char} (h : c.isDigit = true) : isDecimalDigit c = true := by
  rw [isDecimalDigit, decimalValue?, if_pos (digit_ascii h), if_pos h]
  rfl

/-- A reserved word consists of word characters. -/
theorem reserved_word : ∀ w ∈ reservedWords, ∀ c ∈ w, isWordChar c = true := by
  -- as Booleans: deciding a quantifier over characters would run over all of them
  have hall : ∀ w ∈ reservedWords, w.all isWordChar = true := by decide
  exact fun w hw => List.all_eq_true.mp (hall w hw)

/-- A reserved word does not begin with a digit. -/
theorem reserved_first : ∀ w ∈ reservedWords, ∀ c ∈ w.head?, isDecimalDigit c = false := by
  have hall : ∀ w ∈ reservedWords, w.head?.map isDecimalDigit = some false := by decide
  intro w hw c hc
  have h := hall w hw
  rw [Option.mem_def.mp hc] at h
  exact Option.some.inj h

/-! ## Runs -/

theorem takeWhile_breaks {class? : Char → Bool} :
    ∀ {u rest : List Char}, (∀ c ∈ u, class? c = true) → Breaks class? rest →
      (u ++ rest).takeWhile class? = u := by
  intro u
  induction u with
  | nil =>
      intro rest _ hb
      cases rest with
      | nil => rfl
      | cons c rest =>
          show (c :: rest).takeWhile class? = []
          rw [List.takeWhile_cons, show class? c = false from hb]
          rfl
  | cons c u ih =>
      intro rest hu hb
      rw [List.cons_append, List.takeWhile_cons, if_pos (hu c (List.mem_cons_self ..)),
        ih (fun d hd => hu d (List.mem_cons_of_mem _ hd)) hb]

/-- A text is the run of a class at its front and a text that breaks it. -/
theorem takeWhile_split (class? : Char → Bool) : ∀ text : List Char,
    ∃ rest, text = text.takeWhile class? ++ rest ∧
      (∀ c ∈ text.takeWhile class?, class? c = true) ∧ Breaks class? rest := by
  intro text
  induction text with
  | nil => exact ⟨[], rfl, nofun, trivial⟩
  | cons c text ih =>
      by_cases hc : class? c = true
      · obtain ⟨rest, heq, hall, hb⟩ := ih
        rw [List.takeWhile_cons, if_pos hc]
        refine ⟨rest, by rw [List.cons_append, ← heq], ?_, hb⟩
        intro d hd
        rcases List.mem_cons.mp hd with rfl | hd
        · exact hc
        · exact hall d hd
      · rw [List.takeWhile_cons, if_neg hc]
        exact ⟨c :: text, rfl, nofun, Bool.eq_false_iff.mpr hc⟩

namespace Lexeme

theorem run?_eq {class? : Char → Bool} {u rest : List Char} (hne : u ≠ [])
    (hall : ∀ c ∈ u, class? c = true) (hb : Breaks class? rest) :
    run? class? (u ++ rest) = some u.length := by
  rw [run?, takeWhile_breaks hall hb]
  cases u with
  | nil => exact absurd rfl hne
  | cons c u => rfl

theorem run?_split {class? : Char → Bool} {text : List Char} {n : Nat}
    (h : run? class? text = some n) : ∃ u rest, text = u ++ rest ∧ u.length = n ∧
      (u ≠ [] ∧ ∀ c ∈ u, class? c = true) ∧ Breaks class? rest := by
  obtain ⟨rest, heq, hall, hb⟩ := takeWhile_split class? text
  refine ⟨text.takeWhile class?, rest, heq, ?_, ⟨?_, hall⟩, hb⟩
  · unfold run? at h
    split at h
    · exact absurd h nofun
    · exact Option.some.inj h
  · intro hn
    rw [run?, hn] at h
    exact absurd h nofun

theorem run?_none {class? : Char → Bool} {c : Char} (rest : List Char)
    (h : class? c = false) : run? class? (c :: rest) = none := by
  rw [run?, List.takeWhile_cons, h]
  rfl

/-! ## Names and reserved words -/

theorem name?_run {text : List Char} {c : Char} {u : List Char}
    (h : text.takeWhile isWordChar = c :: u) : name? text =
      if isDecimalDigit c || reservedWords.contains (c :: u) then none
      else some (u.length + 1) := by
  rw [name?, h]

theorem name?_eq {u rest : List Char} (hu : IsName u) (hb : Breaks isWordChar rest) :
    name? (u ++ rest) = some u.length := by
  cases u with
  | nil => exact absurd rfl hu.nonempty
  | cons c u =>
      have hd : isDecimalDigit c = false := hu.first c rfl
      have hr : reservedWords.contains (c :: u) = false := by
        rw [List.contains_eq_mem, decide_eq_false_iff_not]
        exact hu.free
      rw [name?_run (takeWhile_breaks hu.word hb), hd, hr]
      rfl

theorem name?_split {text : List Char} {n : Nat} (h : name? text = some n) :
    ∃ u rest, text = u ++ rest ∧ u.length = n ∧ IsName u ∧ Breaks isWordChar rest := by
  obtain ⟨rest, heq, hall, hb⟩ := takeWhile_split isWordChar text
  refine ⟨text.takeWhile isWordChar, rest, heq, ?_⟩
  cases hu : text.takeWhile isWordChar with
  | nil =>
      rw [name?, hu] at h
      exact absurd h nofun
  | cons c u =>
      rw [name?_run hu] at h
      rw [hu] at hall
      by_cases hc : (isDecimalDigit c || reservedWords.contains (c :: u)) = true
      · rw [if_pos hc] at h
        exact absurd h nofun
      · rw [if_neg hc] at h
        rw [Bool.or_eq_true, not_or, Bool.not_eq_true, List.contains_eq_mem,
          decide_eq_true_iff] at hc
        refine ⟨Option.some.inj h, ⟨List.cons_ne_nil c u, hall, ?_, hc.2⟩, hb⟩
        intro d hd
        rw [← Option.some.inj (show some c = some d from hd)]
        exact hc.1

theorem name?_reserved {u rest : List Char} (hu : u ∈ reservedWords)
    (hb : Breaks isWordChar rest) : name? (u ++ rest) = none := by
  cases u with
  | nil => exact absurd hu (by decide)
  | cons c u =>
      have hr : reservedWords.contains (c :: u) = true := by
        rw [List.contains_eq_mem]
        exact decide_eq_true hu
      rw [name?_run (takeWhile_breaks (reserved_word _ hu) hb), hr, Bool.or_true]
      rfl

theorem name?_none {c : Char} (rest : List Char)
    (h : isWordChar c = false ∨ isDecimalDigit c = true) : name? (c :: rest) = none := by
  by_cases hw : isWordChar c = true
  · have hd := h.resolve_left (by rw [hw]; exact Bool.noConfusion)
    rw [name?_run (List.takeWhile_cons_of_pos hw), hd]
    rfl
  · rw [name?, List.takeWhile_cons_of_neg hw]

/-! ## Strings -/

theorem closingQuote?_eq : ∀ {body : List Char} (passed : Nat) (rest : List Char),
    isLiteralBody body = true →
      closingQuote? passed (body ++ '"' :: rest) = some (passed + body.length + 1) := by
  intro body
  -- the cases of a body are its end, a backslash with what it escapes, and any other character
  induction body using isLiteralBody.induct with
  | case1 => intro passed rest _; rfl
  | case2 c body ih =>
      intro passed rest h
      rw [isLiteralBody, Bool.and_eq_true, bne_iff_ne] at h
      show closingQuote? passed ('\\' :: c :: (body ++ '"' :: rest)) = _
      rw [closingQuote?, if_neg (by rw [beq_iff_eq]; exact h.1), ih _ rest h.2]
      show some (passed + 2 + body.length + 1) = some (passed + (body.length + 1 + 1) + 1)
      congr 1
      omega
  | case3 c body hc ih =>
      intro passed rest h
      rw [isLiteralBody] at h
      · simp only [Bool.and_eq_true, bne_iff_ne] at h
        obtain ⟨⟨⟨hq, hs⟩, hn⟩, hb⟩ := h
        rw [List.cons_append, closingQuote?, if_neg, ih _ rest hb]
        · show some (passed + 1 + body.length + 1) = some (passed + (body.length + 1) + 1)
          congr 1
          omega
        · rw [Bool.or_eq_true, beq_iff_eq, beq_iff_eq, not_or]
          exact ⟨hn, hs⟩
        · exact hq
        · intro d more hd
          exact absurd hd hs
      · exact hc

theorem closingQuote?_split : ∀ {text : List Char} {passed n : Nat},
    closingQuote? passed text = some n → ∃ body rest,
      text = body ++ '"' :: rest ∧ n = passed + body.length + 1 ∧
        isLiteralBody body = true := by
  intro text passed
  -- on the search itself: it ends at a quote, fails at a newline and at the end, and steps over
  -- one character or, behind a backslash, over two
  induction passed, text using closingQuote?.induct with
  | case1 passed rest =>
      intro n h
      exact ⟨[], rest, rfl, (Option.some.inj h).symm, rfl⟩
  | case2 passed c rest hc =>
      intro n h
      rw [closingQuote?, if_pos hc] at h
      exact absurd h nofun
  | case3 passed c rest hc ih =>
      intro n h
      rw [closingQuote?, if_neg hc] at h
      obtain ⟨body, more, rfl, rfl, hb⟩ := ih h
      rw [beq_iff_eq] at hc
      refine ⟨'\\' :: c :: body, more, rfl, ?_, ?_⟩
      · show passed + 2 + body.length + 1 = passed + (body.length + 1 + 1) + 1
        omega
      · rw [isLiteralBody, hb, Bool.and_true, bne_iff_ne]
        exact hc
  | case4 passed c rest hq hs hc =>
      intro n h
      rw [closingQuote?, if_pos hc] at h
      · exact absurd h nofun
      · exact hq
      · exact hs
  | case5 passed c rest hq hs hc ih =>
      intro n h
      rw [closingQuote?, if_neg hc] at h
      · obtain ⟨body, more, rfl, rfl, hb⟩ := ih h
        rw [Bool.or_eq_true, beq_iff_eq, beq_iff_eq, not_or] at hc
        refine ⟨c :: body, more, rfl, ?_, ?_⟩
        · show passed + 1 + body.length + 1 = passed + (body.length + 1) + 1
          omega
        · rw [isLiteralBody, hb]
          · simp only [Bool.and_true, Bool.and_eq_true, bne_iff_ne]
            exact ⟨⟨hq, hc.2⟩, hc.1⟩
          · intro d more' hd
            exact absurd hd hc.2
      · exact hq
      · exact hs
  | case6 passed =>
      intro n h
      exact absurd h nofun

theorem string?_eq {body : List Char} (rest : List Char) (h : isLiteralBody body = true) :
    string? ('"' :: (body ++ '"' :: rest)) = some (body.length + 2) := by
  rw [string?, closingQuote?_eq 1 rest h]
  congr 1
  omega

theorem string?_split {text : List Char} {n : Nat} (h : string? text = some n) :
    ∃ body rest, text = '"' :: (body ++ '"' :: rest) ∧ n = body.length + 2 ∧
      isLiteralBody body = true := by
  unfold string? at h
  split at h
  · obtain ⟨body, rest, rfl, rfl, hb⟩ := closingQuote?_split h
    exact ⟨body, rest, rfl, by omega, hb⟩
  · exact absurd h nofun

theorem string?_none {c : Char} (rest : List Char) (h : c ≠ '"') :
    string? (c :: rest) = none := by
  unfold string?
  split
  · next heq => exact absurd (List.cons.inj heq).1 h
  · rfl

/-! ## Spellings -/

theorem fixed?_split {spelling text : List Char} {n : Nat} (h : fixed? spelling text = some n) :
    ∃ rest, text = spelling ++ rest ∧ n = spelling.length := by
  unfold fixed? at h
  split at h
  · next hp =>
    obtain ⟨rest, hr⟩ := List.isPrefixOf_iff_prefix.mp hp
    exact ⟨rest, hr.symm, (Option.some.inj h).symm⟩
  · exact absurd h nofun

theorem operator?_split {text : List Char} {n : Nat} (h : operator? text = some n) :
    ∃ u rest, text = u ++ rest ∧ u.length = n ∧ u ∈ operatorTexts ∧
      (u = ['<'] → Breaks (· == '-') rest) := by
  unfold operator? at h
  split at h
  · next rest => exact ⟨['<', '-'], rest, rfl, Option.some.inj h, by decide, nofun⟩
  · next rest => exact ⟨['=', '='], rest, rfl, Option.some.inj h, by decide, nofun⟩
  · next rest => exact ⟨['!', '='], rest, rfl, Option.some.inj h, by decide, nofun⟩
  · next c rest hlt heq hne =>
    -- of the operators of one character only `<` goes on, and the search for `<-` came first
    have hsub : ("<+*/%>".toList.map fun d => [d]) ⊆ operatorTexts := by decide
    by_cases hc : "<+*/%>".toList.contains c = true
    · rw [if_pos hc] at h
      refine ⟨[c], rest, rfl, Option.some.inj h, hsub (List.mem_map_of_mem ?_), ?_⟩
      · rw [List.contains_eq_mem, decide_eq_true_iff] at hc
        exact hc
      · intro hu
        cases rest with
        | nil => trivial
        | cons d rest =>
            show (d == '-') = false
            rw [beq_eq_false_iff_ne]
            intro hd
            rw [(List.cons.inj hu).1, hd] at hlt
            exact hlt rest rfl rfl
    · rw [if_neg hc] at h
      exact absurd h nofun
  · exact absurd h nofun

theorem separator?_split {text : List Char} {n : Nat} (h : separator? text = some n) :
    ∃ u rest, text = u ++ rest ∧ u.length = n ∧ u ∈ separatorTexts := by
  unfold separator? at h
  split at h
  · next c rest =>
    by_cases hc : (c == ';' || c == '\n') = true
    · rw [if_pos hc] at h
      refine ⟨[c], rest, rfl, Option.some.inj h, ?_⟩
      rw [Bool.or_eq_true, beq_iff_eq, beq_iff_eq] at hc
      rcases hc with rfl | rfl <;> decide
    · rw [if_neg hc] at h
      exact absurd h nofun
  · exact absurd h nofun

end Lexeme

/-- Behind a reserved word the run of word characters ends, or all of it would be a name. -/
theorem Lexeme.reserved_breaks {u rest : List Char} (hu : u ∈ reservedWords)
    (hnone : name? (u ++ rest) = none) : Breaks isWordChar rest := by
  -- no reserved word begins another, so what is behind one is part of a name or nothing
  have hproper : ∀ v ∈ reservedWords, ∀ v' ∈ reservedWords, v <+: v' → v = v' := by decide
  obtain ⟨more, heq, hall, hb⟩ := takeWhile_split isWordChar rest
  generalize rest.takeWhile isWordChar = w at heq hall
  subst heq
  by_cases hr : u ++ w ∈ reservedWords
  · have hw : w = [] := List.self_eq_append_right.mp (hproper u hu _ hr ⟨w, rfl⟩)
    rw [hw]
    exact hb
  · exfalso
    have hname : IsName (u ++ w) := by
      refine ⟨?_, ?_, ?_, hr⟩
      · exact List.append_ne_nil_of_left_ne_nil (fun h => absurd (h ▸ hu) (by decide)) w
      · intro c hc
        rcases List.mem_append.mp hc with hc | hc
        · exact reserved_word u hu c hc
        · exact hall c hc
      · intro c hc
        cases u with
        | nil => exact absurd hu (by decide)
        | cons d u => exact reserved_first _ hu c hc
    rw [← List.append_assoc, name?_eq hname hb] at hnone
    exact nomatch hnone

namespace Terminal

theorem takeWhile_before {α : Type} (p : α → Bool) {a : α} (ha : p a = false) :
    ∀ before after : List α, (before ++ a :: after).takeWhile p ⊆ before := by
  intro before
  induction before with
  | nil =>
      intro after
      rw [List.nil_append, List.takeWhile_cons, ha]
      exact fun _ h => h
  | cons b before ih =>
      intro after
      rw [List.cons_append, List.takeWhile_cons]
      split
      · exact List.cons_subset_cons b (ih after)
      · exact List.nil_subset _

/-- The terminal that is taken matches, and none that is tried before it does. -/
theorem first?_spec {text : List Char} {k : Terminal} {n : Nat}
    (h : first? text = some (k, n)) : k ∈ order ∧ k.length? text = some n ∧
      ∀ k' ∈ order.takeWhile (· ≠ k), k'.length? text = none := by
  obtain ⟨before, k', after, horder, hk, hnone⟩ := List.findSome?_eq_some_iff.mp h
  obtain ⟨n', hlen, heq⟩ := Option.map_eq_some_iff.mp hk
  obtain ⟨rfl, rfl⟩ := Prod.mk.inj heq
  refine ⟨by rw [horder]; exact List.mem_append_right _ (List.mem_cons_self ..), hlen, ?_⟩
  intro k'' hk''
  rw [horder] at hk''
  refine Option.map_eq_none_iff.mp (hnone k'' (takeWhile_before _ ?_ _ _ hk''))
  exact decide_eq_false (Decidable.not_not.mpr rfl)

/-- A terminal that matches and has none before it that does is taken. -/
theorem first?_intro {text : List Char} {k : Terminal} {n : Nat}
    (before after : List Terminal) (horder : order = before ++ k :: after)
    (hlen : k.length? text = some n) (hnone : ∀ k' ∈ before, k'.length? text = none) :
    first? text = some (k, n) := by
  refine List.findSome?_eq_some_iff.mpr ⟨before, k, after, horder, ?_, ?_⟩
  · rw [hlen]
    rfl
  · intro k' hk'
    rw [hnone k' hk']
    rfl

/-- A terminal of one spelling that is taken is written there. -/
theorem fixed_writes {spelling text : List Char} {k : Terminal} {n : Nat}
    (hs : k.Writes spelling) (h : Lexeme.fixed? spelling text = some n)
    (he : ∀ rest, text = spelling ++ rest → k.Ends spelling rest) :
    ∃ u rest, text = u ++ rest ∧ u.length = n ∧ k.Writes u ∧ k.Ends u rest := by
  obtain ⟨rest, rfl, rfl⟩ := Lexeme.fixed?_split h
  exact ⟨spelling, rest, rfl, rfl, hs, he rest rfl⟩

/-- What is taken at the front of a text is written there, and ends there. -/
theorem first?_writes {text : List Char} {k : Terminal} {n : Nat}
    (h : first? text = some (k, n)) :
    ∃ u rest, text = u ++ rest ∧ u.length = n ∧ k.Writes u ∧ k.Ends u rest := by
  obtain ⟨hk, hlen, hnone⟩ := first?_spec h
  -- names are tried before reserved words: where one of these is taken no name stands
  have hword : ∀ w ∈ reservedWords, identifier ∈ order.takeWhile (· ≠ k) →
      ∀ rest, text = w ++ rest → Breaks isWordChar rest := by
    intro w hw hi rest heq
    exact Lexeme.reserved_breaks hw (heq ▸ hnone identifier hi)
  cases k with
  | identifier => exact Lexeme.name?_split hlen
  | string =>
      obtain ⟨body, rest, rfl, rfl, hb⟩ := Lexeme.string?_split hlen
      refine ⟨'"' :: (body ++ ['"']), rest, ?_, ?_, ⟨body, rfl, hb⟩, trivial⟩
      · rw [List.cons_append, List.append_assoc, List.singleton_append]
      · rw [List.length_cons, List.length_append, List.length_singleton]
  | filler => exact Lexeme.run?_split hlen
  | number => exact Lexeme.run?_split hlen
  | operator => exact Lexeme.operator?_split hlen
  | separator =>
      obtain ⟨u, rest, rfl, hn, hu⟩ := Lexeme.separator?_split hlen
      exact ⟨u, rest, rfl, hn, hu, trivial⟩
  | macroWord => exact fixed_writes rfl hlen (hword _ (by decide) (by decide))
  | whileWord => exact fixed_writes rfl hlen (hword _ (by decide) (by decide))
  | elseWord => exact fixed_writes rfl hlen (hword _ (by decide) (by decide))
  | funWord => exact fixed_writes rfl hlen (hword _ (by decide) (by decide))
  | letWord => exact fixed_writes rfl hlen (hword _ (by decide) (by decide))
  | ifWord => exact fixed_writes rfl hlen (hword _ (by decide) (by decide))
  | underline => exact fixed_writes rfl hlen (hword _ (by decide) (by decide))
  | arrow => exact fixed_writes rfl hlen fun _ _ => trivial
  | openBrace => exact fixed_writes rfl hlen fun _ _ => trivial
  | openParen => exact fixed_writes rfl hlen fun _ _ => trivial
  | openSquare => exact fixed_writes rfl hlen fun _ _ => trivial
  | closeBrace => exact fixed_writes rfl hlen fun _ _ => trivial
  | closeParen => exact fixed_writes rfl hlen fun _ _ => trivial
  | closeSquare => exact fixed_writes rfl hlen fun _ _ => trivial
  | equals =>
      refine fixed_writes rfl hlen fun rest heq => ?_
      -- operators are tried before the equals sign, so `==` would have been one
      have ho : Lexeme.operator? text = none := hnone operator (by decide)
      cases rest with
      | nil => trivial
      | cons c rest =>
          show (c == '=') = false
          rw [beq_eq_false_iff_ne]
          rintro rfl
          rw [heq] at ho
          exact nomatch ho
  | minus =>
      refine fixed_writes rfl hlen fun rest heq => ?_
      -- arrows are tried before the minus
      have ha : Lexeme.fixed? "->".toList text = none := hnone arrow (by decide)
      cases rest with
      | nil => trivial
      | cons c rest =>
          show (c == '>') = false
          rw [beq_eq_false_iff_ne]
          rintro rfl
          rw [heq] at ha
          exact nomatch ha
  | endOfInput => exact absurd hk (by decide)

/-- Where no name stands, the other terminals are tried. -/
theorem first?_tail {text : List Char} (h : Lexeme.name? text = none) :
    first? text = (order.drop 1).findSome? fun k => (k.length? text).map fun n => (k, n) := by
  show List.findSome? _ (identifier :: order.drop 1) = _
  rw [List.findSome?_cons, show identifier.length? text = none from h]
  rfl

/-- A reserved word at the end of a run is taken as what it is. -/
theorem first?_reserved {u rest : List Char} {k : Terminal} (hk : k ∈ wordTerminals)
    (hu : k.Writes u) (hb : Breaks isWordChar rest) :
    first? (u ++ rest) = some (k, u.length) := by
  simp only [wordTerminals, List.mem_cons, List.not_mem_nil, or_false] at hk
  rcases hk with rfl | rfl | rfl | rfl | rfl | rfl | rfl
  all_goals
    obtain rfl := Option.some.inj hu
    rw [first?_tail (Lexeme.name?_reserved (by decide) hb)]
    rfl

/-- An operator other than the minus is taken as one. -/
theorem first?_operator {u rest : List Char} (hu : u ∈ operatorTexts)
    (he : u = ['<'] → Breaks (· == '-') rest) :
    first? (u ++ rest) = some (operator, u.length) := by
  simp only [operatorTexts, List.map_cons, List.map_nil, List.mem_cons, List.not_mem_nil,
    or_false] at hu
  rcases hu with rfl | rfl | rfl | rfl | rfl | rfl | rfl | rfl | rfl
  all_goals try rfl
  -- what is left is `<`, which goes on if a minus is behind it
  cases rest with
  | nil => rfl
  | cons c rest =>
      have hc : c ≠ '-' := beq_eq_false_iff_ne.mp (he rfl)
      have ho : operator.length? ('<' :: c :: rest) = some 1 := by
        simp [length?, Lexeme.operator?, hc]
      show first? ('<' :: c :: rest) = some (operator, 1)
      rw [first?_tail rfl]
      simp only [order, List.drop_succ_cons, List.drop_zero, List.findSome?_cons, ho]
      rfl

theorem first?_minus {rest : List Char} (he : Breaks (· == '>') rest) :
    first? ('-' :: rest) = some (minus, 1) := by
  cases rest with
  | nil => rfl
  | cons c rest =>
      have hc : c ≠ '>' := beq_eq_false_iff_ne.mp he
      have ha : arrow.length? ('-' :: c :: rest) = none := by
        simp [length?, spelling?, Lexeme.fixed?, hc.symm]
      rw [first?_tail rfl]
      simp only [order, List.drop_succ_cons, List.drop_zero, List.findSome?_cons, ha]
      rfl

theorem first?_equals {rest : List Char} (he : Breaks (· == '=') rest) :
    first? ('=' :: rest) = some (equals, 1) := by
  cases rest with
  | nil => rfl
  | cons c rest =>
      have hc : c ≠ '=' := beq_eq_false_iff_ne.mp he
      have ho : operator.length? ('=' :: c :: rest) = none := by
        simp [length?, Lexeme.operator?, hc]
      rw [first?_tail rfl]
      simp only [order, List.drop_succ_cons, List.drop_zero, List.findSome?_cons, ho]
      rfl

theorem first?_filler {u rest : List Char} (hu : filler.Writes u) (hb : Breaks isFiller rest) :
    first? (u ++ rest) = some (filler, u.length) := by
  obtain ⟨hne, hall⟩ := hu
  cases u with
  | nil => exact absurd rfl hne
  | cons c u =>
      have hc : isFiller c = true := hall c (List.mem_cons_self ..)
      have hclass := class_filler hc
      refine first?_intro [identifier, string] _ rfl (Lexeme.run?_eq hne hall hb) ?_
      intro k hk
      rcases List.mem_cons.mp hk with rfl | hk
      · exact Lexeme.name?_none _ (Or.inl hclass.2.1)
      · rw [List.mem_singleton.mp hk]
        exact Lexeme.string?_none _ hclass.2.2

theorem first?_number {u rest : List Char} (hu : number.Writes u)
    (hb : Breaks Char.isDigit rest) : first? (u ++ rest) = some (number, u.length) := by
  obtain ⟨hne, hall⟩ := hu
  cases u with
  | nil => exact absurd rfl hne
  | cons c u =>
      have hc : c.isDigit = true := hall c (List.mem_cons_self ..)
      have hclass : isDecimalDigit c = true ∧ c ≠ '"' ∧ isFiller c = false := by
        refine ⟨isDecimalDigit_digit hc, ?_, ?_⟩
        · rintro rfl
          exact absurd hc (by decide)
        · rw [← Bool.not_eq_true]
          intro hf
          rw [(class_filler hf).1] at hc
          exact Bool.noConfusion hc
      refine first?_intro [identifier, string, filler] _ rfl (Lexeme.run?_eq hne hall hb) ?_
      intro k hk
      rcases List.mem_cons.mp hk with rfl | hk
      · exact Lexeme.name?_none _ (Or.inr hclass.1)
      · rcases List.mem_cons.mp hk with rfl | hk
        · exact Lexeme.string?_none _ hclass.2.1
        · rw [List.mem_singleton.mp hk]
          exact Lexeme.run?_none _ hclass.2.2

/-- What is written at the front of a text, and ends there, is taken. -/
theorem first?_eq {k : Terminal} {u rest : List Char} (hu : k.Writes u) (he : k.Ends u rest) :
    first? (u ++ rest) = some (k, u.length) := by
  cases k with
  | identifier => exact first?_intro [] _ rfl (Lexeme.name?_eq hu he) nofun
  | string =>
      obtain ⟨body, rfl, hb⟩ := hu
      rw [List.cons_append, List.append_assoc, List.singleton_append, List.length_cons,
        List.length_append, List.length_singleton]
      refine first?_intro [identifier] _ rfl (Lexeme.string?_eq rest hb) ?_
      intro k hk
      rw [List.mem_singleton.mp hk]
      rfl
  | filler => exact first?_filler hu he
  | number => exact first?_number hu he
  | operator => exact first?_operator hu he
  | separator =>
      simp only [Writes, separatorTexts, List.mem_cons, List.not_mem_nil, or_false] at hu
      rcases hu with rfl | rfl <;> rfl
  | minus =>
      obtain rfl := Option.some.inj hu
      exact first?_minus he
  | equals =>
      obtain rfl := Option.some.inj hu
      exact first?_equals he
  | endOfInput => exact absurd hu nofun
  | macroWord => exact first?_reserved (by decide) hu he
  | whileWord => exact first?_reserved (by decide) hu he
  | elseWord => exact first?_reserved (by decide) hu he
  | funWord => exact first?_reserved (by decide) hu he
  | letWord => exact first?_reserved (by decide) hu he
  | ifWord => exact first?_reserved (by decide) hu he
  | underline => exact first?_reserved (by decide) hu he
  | _ =>
      obtain rfl := Option.some.inj hu
      rfl

end Terminal

end BasicSyntax
