import BasicSyntax.Token
import BasicSyntax.Proofs.Token.Lexeme

/-! # Scanning — a text and its tokens as a relation

    `Scan o p text c` says that a text which stands at the offset `o` and the position `p` is
    cut into `c`: filler is dropped one character at a time, a terminal is taken with the
    characters that follow it in view, and where no terminal stands the text is left alone.

    The relation is the graph of `Tokens.cut` (`scan_iff`).  Facts about all tokens of a text
    are inductions on it, and so is the one fact about changing a text: `Scan.front` keeps the
    first tokens and replaces what is behind them. -/

namespace BasicSyntax

open Text

/-- Tokens before those of a text. -/
def Tokens.prepend (ts : List Token) (c : Tokens) : Tokens := ⟨ts ++ c.tokens, c.stray⟩

/-- A text that stands somewhere is cut into tokens. -/
inductive Scan : Nat → Position → List Char → Tokens → Prop
  | done (o : Nat) (p : Position) : Scan o p [] ⟨[], none⟩
  | filler {o : Nat} {p : Position} {c : Char} {rest : List Char} {cut : Tokens} :
      isFiller c = true → Scan (o + 1) (p.after c) rest cut → Scan o p (c :: rest) cut
  | token {o : Nat} {p : Position} {k : Terminal} {u rest : List Char} {cut : Tokens} :
      k ≠ .filler → k.Writes u → k.Ends u rest → Scan (o + u.length) (p.afterAll u) rest cut →
        Scan o p (u ++ rest) (cut.prepend [⟨k, String.ofList u, o, p⟩])
  | stray {o : Nat} {p : Position} {c : Char} {rest : List Char} :
      Terminal.first? (c :: rest) = none → Scan o p (c :: rest) ⟨[], some ⟨c, o, p⟩⟩

theorem Position.afterAll_append (p : Position) (u v : List Char) :
    p.afterAll (u ++ v) = (p.afterAll u).afterAll v := List.foldl_append ..

/-- What is written is not empty. -/
theorem Terminal.writes_nonempty {k : Terminal} {u : List Char} (h : k.Writes u) : u ≠ [] := by
  rintro rfl
  cases k with
  | identifier => exact h.nonempty rfl
  | string =>
      obtain ⟨body, heq, -⟩ := h
      exact absurd heq nofun
  | filler => exact h.1 rfl
  | number => exact h.1 rfl
  | operator => exact absurd h (show [] ∉ operatorTexts by decide)
  | separator => exact absurd h (show [] ∉ separatorTexts by decide)
  | endOfInput => exact absurd h nofun
  | _ => exact absurd (Option.some.inj h) (by decide)

namespace Tokens

/-! ## The scanner follows the relation -/

/-- The characters of a terminal already cut off are passed over. -/
theorem cut_inside : ∀ (u : List Char) (o : Nat) (p : Position) (done : List Token)
    (rest : List Char),
    cut u.length o p done (u ++ rest) = cut 0 (o + u.length) (p.afterAll u) done rest := by
  intro u
  induction u with
  | nil => intro o p done rest; rfl
  | cons c u ih =>
      intro o p done rest
      show cut u.length (o + 1) (p.after c) done (u ++ rest) = _
      rw [ih, List.length_cons, Nat.add_right_comm, Nat.add_assoc]
      rfl

/-- A terminal at the front is cut off as a whole. -/
theorem cut_first {k : Terminal} {u rest : List Char} (hne : u ≠ [])
    (h : Terminal.first? (u ++ rest) = some (k, u.length)) (o : Nat) (p : Position)
    (done : List Token) :
    cut 0 o p done (u ++ rest) = cut 0 (o + u.length) (p.afterAll u)
      (keep k u.length o p (u ++ rest) done) rest := by
  cases u with
  | nil => exact absurd rfl hne
  | cons c u =>
      rw [← cut_inside]
      show cut 0 o p done (c :: (u ++ rest)) = _
      rw [cut, show Terminal.first? (c :: (u ++ rest)) = _ from h]
      rfl

/-- Filler may be dropped one character at a time. -/
theorem cut_filler {c : Char} (rest : List Char) (h : isFiller c = true) (o : Nat)
    (p : Position) (done : List Token) :
    cut 0 o p done (c :: rest) = cut 0 (o + 1) (p.after c) done rest := by
  -- the scanner takes a run at once, so both sides are compared at the end of the run
  obtain ⟨more, heq, hall, hb⟩ := takeWhile_split isFiller rest
  generalize rest.takeWhile isFiller = u at heq hall
  subst heq
  have hall' : ∀ d ∈ c :: u, isFiller d = true := by
    intro d hd
    rcases List.mem_cons.mp hd with rfl | hd
    · exact h
    · exact hall d hd
  have hrun : ∀ (v : List Char), v ≠ [] → (∀ d ∈ v, isFiller d = true) →
      ∀ (o : Nat) (p : Position),
        cut 0 o p done (v ++ more) = cut 0 (o + v.length) (p.afterAll v) done more := by
    intro v hne hv o p
    exact cut_first hne (Terminal.first?_eq (k := .filler) ⟨hne, hv⟩ hb) o p done
  rw [← List.cons_append, hrun (c :: u) (List.cons_ne_nil c u) hall']
  by_cases hu : u = []
  · rw [hu]
    rfl
  · rw [hrun u hu hall, List.length_cons, Nat.add_right_comm, Nat.add_assoc]
    rfl

theorem cut_token {k : Terminal} {u rest : List Char} (hk : k ≠ .filler) (hu : k.Writes u)
    (he : k.Ends u rest) (o : Nat) (p : Position) (done : List Token) :
    cut 0 o p done (u ++ rest) = cut 0 (o + u.length) (p.afterAll u)
      (⟨k, String.ofList u, o, p⟩ :: done) rest := by
  rw [cut_first (Terminal.writes_nonempty hu) (Terminal.first?_eq hu he), keep, if_neg hk,
    List.take_left]

end Tokens

/-- What the scanner makes of a text is what the relation says. -/
theorem Scan.cut_eq {o : Nat} {p : Position} {text : List Char} {c : Tokens}
    (h : Scan o p text c) : ∀ done : List Token,
      Tokens.cut 0 o p done text = c.prepend done.reverse := by
  induction h with
  | done o p =>
      intro done
      show Tokens.mk done.reverse none = ⟨done.reverse ++ [], none⟩
      rw [List.append_nil]
  | filler hc _ ih =>
      intro done
      rw [Tokens.cut_filler _ hc, ih]
  | token hk hu he _ ih =>
      intro done
      rw [Tokens.cut_token hk hu he, ih, List.reverse_cons]
      show Tokens.mk _ _ = Tokens.mk _ _
      rw [List.append_assoc]
      rfl
  | stray hf =>
      intro done
      rw [Tokens.cut, hf]
      show Tokens.mk done.reverse _ = ⟨done.reverse ++ [], _⟩
      rw [List.append_nil]

/-- Every text is cut into tokens. -/
theorem scan_total : ∀ (n : Nat) (text : List Char), text.length ≤ n →
    ∀ (o : Nat) (p : Position), ∃ c, Scan o p text c := by
  -- on the length, since a terminal takes several characters away
  intro n
  induction n with
  | zero =>
      intro text hn o p
      rw [List.eq_nil_of_length_eq_zero (Nat.le_zero.mp hn)]
      exact ⟨_, .done o p⟩
  | succ n ih =>
      intro text hn o p
      cases text with
      | nil => exact ⟨_, .done o p⟩
      | cons c rest =>
          cases hf : Terminal.first? (c :: rest) with
          | none => exact ⟨_, .stray hf⟩
          | some found =>
              obtain ⟨k, m⟩ := found
              obtain ⟨u, more, heq, -, hu, he⟩ := Terminal.first?_writes hf
              by_cases hk : k = .filler
              -- the scanner would take the whole run; the relation drops its first character
              · subst hk
                obtain ⟨cut, hcut⟩ := ih rest (Nat.le_of_succ_le_succ hn) (o + 1) (p.after c)
                refine ⟨cut, .filler ?_ hcut⟩
                cases u with
                | nil => exact absurd rfl hu.1
                | cons d u =>
                    rw [(List.cons.inj heq).1]
                    exact hu.2 d (List.mem_cons_self ..)
              · have hlt : 0 < u.length := List.length_pos_iff.mpr (Terminal.writes_nonempty hu)
                rw [heq, List.length_append] at hn
                obtain ⟨cut, hcut⟩ := ih more (by omega) (o + u.length) (p.afterAll u)
                rw [heq]
                exact ⟨_, .token hk hu he hcut⟩

/-- **SCANNING**: the relation is the graph of the scanner. -/
theorem scan_iff (o : Nat) (p : Position) (text : List Char) (c : Tokens) :
    Scan o p text c ↔ Tokens.cut 0 o p [] text = c := by
  constructor
  · intro h
    exact h.cut_eq []
  · rintro rfl
    obtain ⟨c, h⟩ := scan_total text.length text (Nat.le_refl _) o p
    have heq : Tokens.cut 0 o p [] text = c := h.cut_eq []
    rw [heq]
    exact h

/-- The tokens of a text. -/
theorem scan_ofText (text : List Char) : Scan 0 .start text (Tokens.ofText text) :=
  (scan_iff ..).mpr rfl

/-- Filler is passed one character at a time, whatever stands behind it. -/
theorem Scan.fillers : ∀ {v : List Char}, (∀ c ∈ v, isFiller c = true) →
    ∀ {o : Nat} {p : Position} {rest : List Char} {cut : Tokens},
      Scan (o + v.length) (p.afterAll v) rest cut → Scan o p (v ++ rest) cut := by
  intro v
  induction v with
  | nil => exact fun _ _ _ _ _ h => h
  | cons c v ih =>
      intro hv o p rest cut h
      obtain ⟨hc, hv'⟩ := List.forall_mem_cons.mp hv
      refine .filler hc (ih hv' ?_)
      rw [List.length_cons, Nat.add_comm v.length, ← Nat.add_assoc] at h
      exact h

/-- Each token has a text that writes its terminal. -/
theorem Scan.writes {o : Nat} {p : Position} {text : List Char} {c : Tokens}
    (h : Scan o p text c) : ∀ t ∈ c.tokens, t.terminal.Writes t.text.toList := by
  induction h with
  | done o p => exact nofun
  | filler _ _ ih => exact ih
  | token _ hu _ _ ih =>
      intro t ht
      rcases List.mem_cons.mp ht with rfl | ht
      · rw [String.toList_ofList]
        exact hu
      · exact ih t ht
  | stray _ => exact nofun

/-- Tokens are of all terminals but filler and the end of the input. -/
abbrev Terminal.IsSort (k : Terminal) : Prop :=
  k ≠ .filler ∧ k ≠ .endOfInput

/-- Where the input ends nothing is written. -/
theorem Terminal.Writes.inside {k : Terminal} {u : List Char} (h : k.Writes u) :
    k ≠ .endOfInput := by
  rintro rfl
  exact absurd h nofun

theorem Scan.isSort {o : Nat} {p : Position} {text : List Char} {c : Tokens}
    (h : Scan o p text c) : ∀ t ∈ c.tokens, t.terminal.IsSort := by
  induction h with
  | done o p => exact nofun
  | filler _ _ ih => exact ih
  | token hk hu _ _ ih => exact List.forall_mem_cons.mpr ⟨⟨hk, hu.inside⟩, ih⟩
  | stray _ => exact nofun

/-! ## Changing what follows -/

namespace Terminal

/-- What ends a terminal is told by the next character. -/
theorem ends_head {k : Terminal} {u : List Char} {c : Char} {rest : List Char}
    (more : List Char) (h : k.Ends u (c :: rest)) : k.Ends u (c :: more) := by
  cases k <;> exact h

/-- The end of the text ends every terminal. -/
theorem ends_nil (k : Terminal) (u : List Char) : k.Ends u [] := by
  cases k
  all_goals first | exact trivial | exact fun _ => trivial

/-- A blank ends every token. -/
theorem ends_blank {k : Terminal} (hk : k ≠ .filler) (u more : List Char) :
    k.Ends u (' ' :: more) := by
  cases k
  case filler => exact absurd rfl hk
  all_goals first | exact trivial | exact fun _ => rfl | exact rfl

end Terminal

/-- The first tokens of a text stay what they are if a blank and any other text follow them. -/
theorem Scan.front {o : Nat} {p : Position} {text : List Char} {c : Tokens}
    (h : Scan o p text c) : ∀ fed later : List Token, c.tokens = fed ++ later →
      ∃ u rest : List Char, text = u ++ rest ∧ ∀ (more : List Char) (cut : Tokens),
        Scan (o + u.length + 1) ((p.afterAll u).after ' ') more cut →
          Scan o p (u ++ ' ' :: more) (cut.prepend fed) := by
  induction h with
  | done o p =>
      intro fed later heq
      rw [(List.append_eq_nil_iff.mp heq.symm).1]
      exact ⟨[], [], rfl, fun more cut hc => .filler rfl hc⟩
  | stray _ =>
      intro fed later heq
      rw [(List.append_eq_nil_iff.mp heq.symm).1]
      exact ⟨[], _, rfl, fun more cut hc => .filler rfl hc⟩
  | @filler o p d rest cut hd _ ih =>
      intro fed later heq
      obtain ⟨u, back, rfl, hu⟩ := ih fed later heq
      refine ⟨d :: u, back, rfl, fun more cut' hc => .filler hd (hu more cut' ?_)⟩
      have ho : o + (d :: u).length + 1 = o + 1 + u.length + 1 := by
        rw [List.length_cons]
        omega
      rw [ho] at hc
      exact hc
  | @token o p k w rest cut hk hw he _ ih =>
      intro fed later heq
      cases fed with
      | nil => exact ⟨[], _, rfl, fun more cut hc => .filler rfl hc⟩
      | cons t fed =>
          obtain ⟨ht, heq'⟩ := List.cons.inj heq
          obtain ⟨u, back, rfl, hu⟩ := ih fed later heq'
          refine ⟨w ++ u, back, (List.append_assoc ..).symm, fun more cut' hc => ?_⟩
          -- only the last token that is kept has the blank behind it
          have he' : k.Ends w (u ++ ' ' :: more) := by
            cases u with
            | nil => exact Terminal.ends_blank hk w more
            | cons d u => exact Terminal.ends_head _ he
          rw [List.length_append, Position.afterAll_append, ← Nat.add_assoc] at hc
          rw [List.append_assoc, ← ht]
          exact .token hk hw he' (hu more cut' hc)

end BasicSyntax
