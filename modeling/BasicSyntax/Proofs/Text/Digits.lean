import Mathlib.Algebra.Group.Nat.Defs
import BasicSyntax.Proofs.Token.Lexeme
import BasicSyntax.Text.Integer

/-! # Digits — numbers as they are written and read

    A number is written in decimal digits without leading zeros, and a run of digits is read as
    the number they stand for.  Writing and reading gives the number back, and how many digits
    there are bounds the number and is bounded by it. -/

namespace BasicSyntax.Text

/-- The value of a digit. -/
theorem digit_lt {c : Char} (h : c.isDigit = true) : c.toNat - '0'.toNat < 10 := by
  simp only [Char.isDigit, Bool.and_eq_true, decide_eq_true_eq] at h
  have hle : c.val.toNat ≤ 57 := h.2
  show c.val.toNat - 48 < 10
  omega

/-- What digits stand for is below the power of ten with as many zeros. -/
theorem ofDigits_lt {digits : List Nat} (h : ∀ d ∈ digits, d < 10) :
    ofDigits digits < 10 ^ digits.length := by
  -- for any number read so far, since the fold goes from the left
  have hfold : ∀ (ds : List Nat) (n : Nat), (∀ d ∈ ds, d < 10) →
      ds.foldl (fun number digit => 10 * number + digit) n < (n + 1) * 10 ^ ds.length := by
    intro ds
    induction ds with
    | nil =>
        intro n _
        show n < (n + 1) * 1
        omega
    | cons d ds ih =>
        intro n hds
        obtain ⟨hd, hmore⟩ := List.forall_mem_cons.mp hds
        calc ds.foldl (fun number digit => 10 * number + digit) (10 * n + d)
            < (10 * n + d + 1) * 10 ^ ds.length := ih _ hmore
          _ ≤ ((n + 1) * 10) * 10 ^ ds.length := Nat.mul_le_mul_right _ (by omega)
          _ = (n + 1) * 10 ^ (ds.length + 1) := by
            rw [Nat.pow_succ, Nat.mul_assoc, Nat.mul_comm 10]
  have h₀ := hfold digits 0 h
  rw [Nat.zero_add, Nat.one_mul] at h₀
  exact h₀

/-- The digits of a number write it. -/
theorem writes_toDigits (n : Nat) : Terminal.number.Writes (Nat.toDigits 10 n) :=
  ⟨Nat.toDigits_ne_nil, fun _ hc => Nat.isDigit_of_mem_toDigits (by decide) (by decide) hc⟩

/-- The digits of a number are read as the number. -/
theorem ofDigits_toDigits (n : Nat) :
    ofDigits ((Nat.toDigits 10 n).map fun c => c.toNat - '0'.toNat) = n := by
  rw [ofDigits, List.foldl_map]
  exact Nat.ofDigitChars_ten_toDigits

/-! ## Numbers with a sign -/

/-- A number is written in digits, with a minus in front if it is negative. -/
theorem number_chars (value : Int) :
    ∀ c ∈ (toString value).toList, c = '-' ∨ c.isDigit = true := by
  have hdigits : ∀ n : Nat, ∀ c ∈ n.repr.toList, c.isDigit = true := by
    intro n
    rw [Nat.toList_repr]
    exact (writes_toDigits n).2
  cases value with
  | ofNat n => exact fun c hc => .inr (hdigits n c hc)
  | negSucc n =>
      show ∀ c ∈ ("-" ++ (n + 1).repr).toList, _
      intro c hc
      rw [String.toList_append, List.mem_append] at hc
      rcases hc with hc | hc
      · exact .inl (List.mem_singleton.mp hc)
      · exact .inr (hdigits (n + 1) c hc)

/-- Few enough digits are those of the numbers below a power of ten. -/
theorem isWritable_iff {value : Int} :
    isWritable value = true ↔ value.natAbs < 10 ^ digitLimit := by
  have hlist : value.natAbs.repr.toList = Nat.toDigits 10 value.natAbs := Nat.toList_repr
  show decide (value.natAbs.repr.length ≤ digitLimit) = true ↔ _
  rw [decide_eq_true_eq, ← String.length_toList, hlist]
  exact Nat.length_toDigits_le_iff (by decide) (by decide)

/-- A number is not written as a minus alone. -/
theorem number_digit (value : Int) : ∃ c ∈ (toString value).toList, c.isDigit = true := by
  have hdigit : ∀ n : Nat, ∃ c ∈ n.repr.toList, c.isDigit = true := by
    intro n
    obtain ⟨hne, hall⟩ := writes_toDigits n
    rw [Nat.toList_repr]
    exact ⟨_, List.head_mem hne, hall _ (List.head_mem hne)⟩
  cases value with
  | ofNat n => exact hdigit n
  | negSucc n =>
      obtain ⟨c, hc, hdigit⟩ := hdigit (n + 1)
      show ∃ c ∈ ("-" ++ (n + 1).repr).toList, _
      rw [String.toList_append]
      exact ⟨c, List.mem_append_right _ hc, hdigit⟩

/-- Numbers that are written alike are the same. -/
theorem number_injective {value value' : Int} (h : toString value = toString value') :
    value = value' := by
  have hnat : ∀ {m n : Nat}, m.repr = n.repr → m = n := by
    intro m n heq
    rw [← String.toList_inj, Nat.toList_repr, Nat.toList_repr] at heq
    rw [← ofDigits_toDigits m, heq, ofDigits_toDigits]
  -- a minus is no digit, so it tells a negative number from any other
  have hsign : ∀ m n : Nat, m.repr ≠ "-" ++ n.repr := by
    intro m n heq
    have hmem : '-' ∈ m.repr.toList := by
      rw [heq, String.toList_append]
      exact List.mem_append_left _ (List.mem_singleton_self '-')
    rw [Nat.toList_repr] at hmem
    exact absurd ((writes_toDigits m).2 '-' hmem) (by decide)
  cases value with
  | ofNat m =>
      cases value' with
      | ofNat n => exact congrArg Int.ofNat (hnat h)
      | negSucc n => exact absurd h (hsign m (n + 1))
  | negSucc m =>
      cases value' with
      | ofNat n => exact absurd h.symm (hsign n (m + 1))
      | negSucc n =>
          have heq : (m + 1).repr = (n + 1).repr := by
            have h' := String.toList_inj.mpr (show "-" ++ (m + 1).repr = "-" ++ (n + 1).repr from h)
            rw [String.toList_append, String.toList_append] at h'
            exact String.toList_inj.mp (List.append_cancel_left h')
          exact congrArg Int.negSucc (Nat.succ.inj (hnat heq))

/-- A number has no newline. -/
theorem number_line (value : Int) : '\n' ∉ (toString value).toList := by
  intro hmem
  rcases number_chars value '\n' hmem with h | h <;> exact absurd h (by decide)

end BasicSyntax.Text
