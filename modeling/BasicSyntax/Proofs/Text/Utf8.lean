import BasicSyntax.Text.Utf8

/-! # UTF-8 — decoding what was encoded

    A character is encoded by a lead byte, which says how many bytes follow, and by six bits in
    each of those.  Read back, the lead byte is known for what it is, every byte behind it lies
    within its bounds, and the bits put together are the character again.  The bounds of the
    first byte behind the lead are where surrogates and second encodings would be: no character
    comes near them. -/

namespace BasicSyntax.Text

/-- The bytes that characters are encoded in. -/
def encodeUtf8 (text : List Char) : List UInt8 := text.flatMap String.utf8EncodeChar

/-- The bytes of a string. -/
theorem toUTF8_encode (text : String) : text.toUTF8.data.toList = encodeUtf8 text.toList := by
  rw [String.toUTF8_eq_toByteArray, ← String.utf8Encode_toList]
  exact List.toList_data_toByteArray

/-! ## Single bytes -/

section

variable {place : Nat} {done : List Char} {byte : UInt8} {rest : List UInt8}

theorem decode_ascii (h : byte.toNat < 0x80) : decodeFrom place none done (byte :: rest) =
    decodeFrom (place + 1) none (Char.ofNat byte.toNat :: done) rest := by
  rw [decodeFrom, utf8Lead?, if_pos h]
  rfl

/-- A lead byte is remembered, with what it announces. -/
theorem decode_lead {lead : Utf8Lead} (h : utf8Lead? byte = some lead)
    (hf : lead.following ≠ 0) : decodeFrom place none done (byte :: rest) =
      decodeFrom (place + 1)
        (some ⟨byte, place, 1, lead.bits, lead.following, lead.low, lead.high⟩) done rest := by
  rw [decodeFrom, h]
  exact if_neg hf

/-- A byte within its bounds adds its bits, and then more are to come. -/
theorem decode_more {p : Utf8Partial} (hl : p.low ≤ byte.toNat) (hh : byte.toNat ≤ p.high)
    (hm : 1 < p.missing) : decodeFrom place (some p) done (byte :: rest) =
      decodeFrom (place + 1) (some ⟨p.first, p.start, p.count + 1,
        p.bits * 0x40 + byte.toNat % 0x40, p.missing - 1, 0x80, 0xBF⟩) done rest := by
  rw [decodeFrom, decide_eq_true hl, decide_eq_true hh]
  exact if_neg (Nat.not_le.mpr hm)

/-- The last byte of a character completes it. -/
theorem decode_last {p : Utf8Partial} (hl : p.low ≤ byte.toNat) (hh : byte.toNat ≤ p.high)
    (hm : p.missing = 1) : decodeFrom place (some p) done (byte :: rest) =
      decodeFrom (place + 1) none (Char.ofNat (p.bits * 0x40 + byte.toNat % 0x40) :: done)
        rest := by
  rw [decodeFrom, decide_eq_true hl, decide_eq_true hh]
  exact if_pos (Nat.le_of_eq hm)

end

/-! ## Single characters -/

theorem toNat_byte {n : Nat} (h : n < 0x100) : (UInt8.ofNat n).toNat = n :=
  UInt8.toNat_ofNat_of_lt' h

/-- A byte that holds six bits of a character. -/
theorem toNat_continuation (n : Nat) :
    (UInt8.ofNat (n % 0x40 + 0x80)).toNat = n % 0x40 + 0x80 :=
  toNat_byte (by omega)

theorem lead_two {n : Nat} (hlow : 2 ≤ n) (hhigh : n < 0x20) :
    utf8Lead? (UInt8.ofNat (n % 0x20 + 0xc0)) = some ⟨1, n, 0x80, 0xBF⟩ := by
  have hb : (UInt8.ofNat (n % 0x20 + 0xc0)).toNat = n + 0xc0 := by
    rw [toNat_byte (by omega)]
    omega
  have hbits : (n + 0xc0) % 0x20 = n := by omega
  rw [utf8Lead?, hb, if_neg (by omega), if_neg (by omega), if_pos (by omega), hbits]

theorem lead_three {n : Nat} (hhigh : n < 0x10) :
    utf8Lead? (UInt8.ofNat (n % 0x10 + 0xe0)) =
      some ⟨2, n, if n = 0 then 0xA0 else 0x80, if n = 13 then 0x9F else 0xBF⟩ := by
  have hb : (UInt8.ofNat (n % 0x10 + 0xe0)).toNat = n + 0xe0 := by
    rw [toNat_byte (by omega)]
    omega
  have hbits : (n + 0xe0) % 0x10 = n := by omega
  have hfirst : n + 0xe0 = 0xE0 ↔ n = 0 := by omega
  have hsurrogate : n + 0xe0 = 0xED ↔ n = 13 := by omega
  rw [utf8Lead?, hb, if_neg (by omega), if_neg (by omega), if_neg (by omega), if_pos (by omega),
    hbits]
  simp only [hfirst, hsurrogate]

theorem lead_four {n : Nat} (hhigh : n < 5) :
    utf8Lead? (UInt8.ofNat (n % 0x08 + 0xf0)) =
      some ⟨3, n, if n = 0 then 0x90 else 0x80, if n = 4 then 0x8F else 0xBF⟩ := by
  have hb : (UInt8.ofNat (n % 0x08 + 0xf0)).toNat = n + 0xf0 := by
    rw [toNat_byte (by omega)]
    omega
  have hbits : (n + 0xf0) % 0x08 = n := by omega
  have hfirst : n + 0xf0 = 0xF0 ↔ n = 0 := by omega
  have hend : n + 0xf0 = 0xF4 ↔ n = 4 := by omega
  rw [utf8Lead?, hb, if_neg (by omega), if_neg (by omega), if_neg (by omega),
    if_neg (by omega), if_pos (by omega), hbits]
  simp only [hfirst, hend]

/-- A character that was encoded is decoded, whatever follows it. -/
theorem decode_char (c : Char) (place : Nat) (done : List Char) (rest : List UInt8) :
    decodeFrom place none done (String.utf8EncodeChar c ++ rest) =
      decodeFrom (place + (String.utf8EncodeChar c).length) none (c :: done) rest := by
  have hchar : Char.ofNat c.val.toNat = c := Char.ofNat_toNat c
  -- a character is no surrogate, and there is a greatest one
  have hvalid : c.val.toNat < 0xd800 ∨ 0xdfff < c.val.toNat ∧ c.val.toNat < 0x110000 := c.valid
  generalize hv : c.val.toNat = v at hchar hvalid
  have hlast := toNat_continuation v
  have hsecond := toNat_continuation (v / 64)
  have hthird := toNat_continuation (v / 4096)
  rw [String.utf8EncodeChar, hv]
  by_cases h1 : v ≤ 0x7f
  · have hb : (UInt8.ofNat v).toNat = v := toNat_byte (by omega)
    rw [if_pos h1, List.cons_append, List.nil_append, decode_ascii (by omega), hb, hchar]
    rfl
  by_cases h2 : v ≤ 0x7ff
  · have hbits : v / 64 * 0x40 + (v % 0x40 + 0x80) % 0x40 = v := by omega
    rw [if_neg h1, if_pos h2, List.cons_append, List.cons_append, List.nil_append,
      decode_lead (lead_two (by omega) (by omega)) (by decide : (1 : Nat) ≠ 0),
      decode_last (by dsimp only; omega) (by dsimp only; omega) rfl]
    dsimp only
    rw [hlast, hbits, hchar]
    rfl
  by_cases h3 : v ≤ 0xffff
  · have hbits : (v / 4096 * 0x40 + (v / 64 % 0x40 + 0x80) % 0x40) * 0x40 +
        (v % 0x40 + 0x80) % 0x40 = v := by omega
    rw [if_neg h1, if_neg h2, if_pos h3, List.cons_append, List.cons_append, List.cons_append,
      List.nil_append, decode_lead (lead_three (by omega)) (by decide : (2 : Nat) ≠ 0),
      decode_more (by dsimp only; split <;> omega) (by dsimp only; split <;> omega)
        (by decide : 1 < 2),
      decode_last (by dsimp only; omega) (by dsimp only; omega) rfl]
    dsimp only
    rw [hsecond, hlast, hbits, hchar]
    rfl
  · have hbits : ((v / 262144 * 0x40 + (v / 4096 % 0x40 + 0x80) % 0x40) * 0x40 +
        (v / 64 % 0x40 + 0x80) % 0x40) * 0x40 + (v % 0x40 + 0x80) % 0x40 = v := by omega
    rw [if_neg h1, if_neg h2, if_neg h3, List.cons_append, List.cons_append, List.cons_append,
      List.cons_append, List.nil_append, decode_lead (lead_four (by omega))
        (by decide : (3 : Nat) ≠ 0),
      decode_more (by dsimp only; split <;> omega) (by dsimp only; split <;> omega)
        (by decide : 1 < 3),
      decode_more (by dsimp only; omega) (by dsimp only; omega) (by decide : 1 < 3 - 1),
      decode_last (by dsimp only; omega) (by dsimp only; omega) rfl]
    dsimp only
    rw [hthird, hsecond, hlast, hbits, hchar]
    rfl

/-! ## Texts -/

theorem decode_encode_from : ∀ (text : List Char) (place : Nat) (done : List Char),
    decodeFrom place none done (encodeUtf8 text) = .ok (done.reverse ++ text) := by
  intro text
  induction text with
  | nil =>
      intro place done
      rw [List.append_nil]
      rfl
  | cons c text ih =>
      intro place done
      rw [encodeUtf8, List.flatMap_cons, decode_char]
      refine (ih _ (c :: done)).trans ?_
      rw [List.reverse_cons, List.append_assoc]
      rfl

/-- **DECODING** gives back what was encoded. -/
theorem decodeUtf8_encode (text : List Char) : decodeUtf8 (encodeUtf8 text) = .ok text :=
  decode_encode_from text 0 []

end BasicSyntax.Text
