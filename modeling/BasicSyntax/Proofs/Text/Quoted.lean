import BasicSyntax.Text.Quoted
import Mathlib.Algebra.Group.Nat.Defs
import Mathlib.Data.List.Basic

/-! # Quoted text — what a quoted text tells

    A quoted text determines the text and where in a longer text it ends
    (`quotedChars_append`), and it is on one line.

    Between the quotes every character is written in one of two ways (`Escaped`): as it is, or as
    a backslash, a mark, and as many digits as the mark calls for.  The mark and the number that
    the digits stand for determine the character, so no two characters are written alike, nor is
    one the beginning of another. -/

namespace BasicSyntax.Text

/-! ## Digits to the base sixteen -/

theorem hexDigit_injective : ∀ m < 16, ∀ n < 16, hexDigit m = hexDigit n → m = n := by decide

theorem hexDigits_length (width : Nat) : ∀ n : Nat, (hexDigits width n).length = width := by
  induction width with
  | zero => exact fun _ => rfl
  | succ width ih =>
      intro n
      rw [hexDigits, List.length_append, ih]
      rfl

theorem hexDigits_injective {width : Nat} : ∀ {m n : Nat}, m < 16 ^ width → n < 16 ^ width →
    hexDigits width m = hexDigits width n → m = n := by
  induction width with
  | zero =>
      intro m n hm hn _
      rw [Nat.lt_one_iff.mp hm, Nat.lt_one_iff.mp hn]
  | succ width ih =>
      intro m n hm hn heq
      obtain ⟨hfront, hlast⟩ := List.append_inj' heq rfl
      have hmod := hexDigit_injective _ (Nat.mod_lt m (by decide)) _ (Nat.mod_lt n (by decide))
        (List.cons.inj hlast).1
      have hdiv := ih (m := m / 16) (n := n / 16)
        (Nat.div_lt_of_lt_mul (by rwa [Nat.pow_succ, Nat.mul_comm] at hm))
        (Nat.div_lt_of_lt_mul (by rwa [Nat.pow_succ, Nat.mul_comm] at hn)) hfront
      rw [← Nat.div_add_mod m 16, ← Nat.div_add_mod n 16, hdiv, hmod]

theorem hexDigits_line {width : Nat} : ∀ n : Nat, '\n' ∉ hexDigits width n := by
  have hdigit : ∀ m < 16, '\n' ≠ hexDigit m := by decide
  induction width with
  | zero => exact fun _ => List.not_mem_nil
  | succ width ih =>
      intro n
      rw [hexDigits, List.mem_append, List.mem_singleton]
      exact not_or.mpr ⟨ih (n / 16), hdigit _ (Nat.mod_lt n (by decide))⟩

/-! ## One character -/

/-- How many digits stand behind a mark. -/
def escapeWidth (mark : Char) : Nat :=
  if mark = 'x' then 2 else if mark = 'u' then 4 else if mark = 'U' then 8 else 0

/-- The character that a mark and a number stand for. -/
def escapeMeaning (mark : Char) (code : Nat) : Char :=
  if mark = 'n' then '\n' else if mark = 'r' then '\r' else if mark = 't' then '\t'
  else if escapeWidth mark = 0 then mark else Char.ofNat code

/-- How a character stands between quotes: as it is, or behind a backslash. -/
inductive Escaped (quote c : Char) : List Char → Prop
  | plain : c ≠ quote → c ≠ '\\' → c ≠ '\n' → Escaped quote c [c]
  | marked (mark : Char) (code : Nat) : mark ≠ '\n' → code < 16 ^ escapeWidth mark →
      escapeMeaning mark code = c →
      Escaped quote c ('\\' :: mark :: hexDigits (escapeWidth mark) code)

/-- The characters that texts are quoted in. -/
def IsQuote (c : Char) : Prop := c = '\'' ∨ c = '"'

theorem escapeChar_escaped {quote : Char} (hquote : IsQuote quote) (c : Char) :
    Escaped quote c (escapeChar quote c) := by
  have hcode : c.toNat < 16 ^ 8 := c.val.toNat_lt
  have hsame : Char.ofNat c.toNat = c := Char.ofNat_toNat c
  unfold escapeChar
  split_ifs with hself hnewline hreturn htab hprint hbyte hpair
  · have hmark : c = '\\' ∨ c = '\'' ∨ c = '"' := by
      simp only [Bool.or_eq_true, beq_iff_eq] at hself
      rcases hself with rfl | rfl
      · exact .inr hquote
      · exact .inl rfl
    rcases hmark with rfl | rfl | rfl
    all_goals exact .marked _ 0 (by decide) (by decide) rfl
  · exact .marked 'n' 0 (by decide) (by decide) (beq_iff_eq.mp hnewline).symm
  · exact .marked 'r' 0 (by decide) (by decide) (beq_iff_eq.mp hreturn).symm
  · exact .marked 't' 0 (by decide) (by decide) (beq_iff_eq.mp htab).symm
  · simp only [Bool.or_eq_true, beq_iff_eq, not_or] at hself hnewline
    exact .plain hself.1 hself.2 hnewline
  · exact .marked 'x' c.toNat (by decide) hbyte hsame
  · exact .marked 'u' c.toNat (by decide) hpair hsame
  · exact .marked 'U' c.toNat (by decide) hcode hsame

namespace Escaped

variable {quote c c' : Char} {u u' : List Char}

/-- What stands for a character is determined by how it begins. -/
theorem append_injective (h : Escaped quote c u) (h' : Escaped quote c' u') {rest rest' : List Char}
    (heq : u ++ rest = u' ++ rest') : c = c' ∧ rest = rest' := by
  cases h with
  | plain _ hslash _ =>
      cases h' with
      | plain _ _ _ => exact List.cons.inj heq
      | marked _ _ _ _ _ => exact absurd (List.cons.inj heq).1 hslash
  | marked mark code _ hcode hmeaning =>
      cases h' with
      | plain _ hslash _ => exact absurd (List.cons.inj heq).1.symm hslash
      | marked mark' code' _ hcode' hmeaning' =>
          obtain ⟨rfl, hdigits⟩ := List.cons.inj (List.cons.inj heq).2
          obtain ⟨hsame, hrest⟩ := List.append_inj hdigits
            ((hexDigits_length _ code).trans (hexDigits_length _ code').symm)
          rw [← hmeaning, ← hmeaning', hexDigits_injective hcode hcode' hsame]
          exact ⟨rfl, hrest⟩

/-- What stands for a character does not begin with the quote. -/
theorem not_quote (h : Escaped quote c u) (hquote : IsQuote quote) {rest rest' : List Char} :
    u ++ rest ≠ quote :: rest' := by
  intro heq
  cases h with
  | plain hno _ _ => exact hno (List.cons.inj heq).1
  | marked _ _ _ _ _ =>
      rw [← (List.cons.inj heq).1] at hquote
      rcases hquote with hquote | hquote <;> exact absurd hquote (by decide)

theorem line (h : Escaped quote c u) : '\n' ∉ u := by
  cases h with
  | plain _ _ hno => exact List.not_mem_cons_of_ne_of_not_mem (Ne.symm hno) List.not_mem_nil
  | marked mark code hno _ _ =>
      exact List.not_mem_cons_of_ne_of_not_mem (by decide)
        (List.not_mem_cons_of_ne_of_not_mem (Ne.symm hno) (hexDigits_line code))

end Escaped

/-! ## Whole texts -/

theorem quoteFor_quote (text : List Char) : IsQuote (quoteFor text) := by
  unfold quoteFor
  split
  · exact .inr rfl
  · exact .inl rfl

/-- Characters between quotes and the quote behind them determine each other. -/
theorem escapeChar_append {quote : Char} (hquote : IsQuote quote) {rest rest' : List Char} :
    ∀ {text text' : List Char}, text.flatMap (escapeChar quote) ++ quote :: rest =
      text'.flatMap (escapeChar quote) ++ quote :: rest' → text = text' ∧ rest = rest' := by
  intro text
  induction text with
  | nil =>
      intro text' heq
      cases text' with
      | nil => exact ⟨rfl, (List.cons.inj heq).2⟩
      | cons c' text' =>
          rw [List.flatMap_cons, List.append_assoc] at heq
          exact absurd heq.symm ((escapeChar_escaped hquote c').not_quote hquote)
  | cons c text ih =>
      intro text' heq
      rw [List.flatMap_cons, List.append_assoc] at heq
      cases text' with
      | nil => exact absurd heq ((escapeChar_escaped hquote c).not_quote hquote)
      | cons c' text' =>
          rw [List.flatMap_cons, List.append_assoc] at heq
          obtain ⟨rfl, heq'⟩ := (escapeChar_escaped hquote c).append_injective
            (escapeChar_escaped hquote c') heq
          obtain ⟨rfl, hrest⟩ := ih heq'
          exact ⟨rfl, hrest⟩

/-- **QUOTED TEXT** determines the text and where it ends. -/
theorem quotedChars_append {text text' rest rest' : List Char}
    (heq : quotedChars text ++ rest = quotedChars text' ++ rest') :
    text = text' ∧ rest = rest' := by
  simp only [quotedChars, List.cons_append, List.append_assoc] at heq
  obtain ⟨hquote, heq'⟩ := List.cons.inj heq
  rw [← hquote] at heq'
  exact escapeChar_append (quoteFor_quote text) heq'

theorem quotedChars_line (text : List Char) : '\n' ∉ quotedChars text := by
  have hquote : '\n' ≠ quoteFor text := by
    rcases quoteFor_quote text with h | h <;> rw [h] <;> decide
  refine List.not_mem_cons_of_ne_of_not_mem hquote ?_
  rw [List.mem_append, List.mem_flatMap, List.mem_singleton]
  rintro (⟨c, -, hc⟩ | hlast)
  · exact (escapeChar_escaped (quoteFor_quote text) c).line hc
  · exact hquote hlast

end BasicSyntax.Text
