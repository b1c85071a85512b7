/-! # UTF-8 — bytes to characters, with the first fault described

    A lead byte fixes how many bytes follow and bounds the first of them, so that each
    character has one encoding and surrogates have none.  The bytes at fault are the longest
    start of an encoding that stands there, and at least one. -/

namespace BasicSyntax.Text

/-- Why bytes are no text. -/
inductive Utf8Reason
  | invalidStart
  | invalidContinuation
  | unexpectedEnd
  deriving DecidableEq, Repr

/-- The bytes at fault: the first of them, where they begin, how many they are, and why. -/
structure Utf8Fault where
  first : UInt8
  start : Nat
  count : Nat
  reason : Utf8Reason
  deriving DecidableEq, Repr

/-- The reason in words. -/
def Utf8Reason.message : Utf8Reason → String
  | .invalidStart => "invalid start byte"
  | .invalidContinuation => "invalid continuation byte"
  | .unexpectedEnd => "unexpected end of data"

/-- A byte in two digits to the base sixteen. -/
def hexByte (byte : UInt8) : String :=
  String.ofList [Nat.digitChar (byte.toNat / 16), Nat.digitChar (byte.toNat % 16)]

/-- The complaint in words. -/
def Utf8Fault.message (fault : Utf8Fault) : String :=
  let place :=
    if fault.count = 1 then s!"byte 0x{hexByte fault.first} in position {fault.start}"
    else s!"bytes in position {fault.start}-{fault.start + fault.count - 1}"
  s!"'utf-8' codec can't decode {place}: {fault.reason.message}"

/-- The character that a lead byte announces: how many bytes follow it, the bits it gives,
    and the bounds of the first byte after it. -/
structure Utf8Lead where
  following : Nat
  bits : Nat
  low : Nat
  high : Nat

/-- What a byte announces as a lead byte. -/
def utf8Lead? (byte : UInt8) : Option Utf8Lead :=
  let b := byte.toNat
  if b < 0x80 then some ⟨0, b, 0x80, 0xBF⟩
  else if b < 0xC2 then none
  else if b < 0xE0 then some ⟨1, b % 0x20, 0x80, 0xBF⟩
  else if b < 0xF0 then
    some ⟨2, b % 0x10, if b = 0xE0 then 0xA0 else 0x80, if b = 0xED then 0x9F else 0xBF⟩
  else if b < 0xF5 then
    some ⟨3, b % 0x08, if b = 0xF0 then 0x90 else 0x80, if b = 0xF4 then 0x8F else 0xBF⟩
  else none

/-- A character in the course of being read: the lead byte and its place, how many bytes have
    been read, the bits gathered, how many bytes are still to come, and the bounds of the next. -/
structure Utf8Partial where
  first : UInt8
  start : Nat
  count : Nat
  bits : Nat
  missing : Nat
  low : Nat
  high : Nat

/-- Decode from a place on, with the character under way, if there is one; `done` holds what is
    decoded, last character first. -/
def decodeFrom (place : Nat) (pending : Option Utf8Partial) (done : List Char) :
    List UInt8 → Except Utf8Fault (List Char)
  | [] =>
    match pending with
    | none => .ok done.reverse
    | some p => .error ⟨p.first, p.start, p.count, .unexpectedEnd⟩
  | byte :: rest =>
    match pending with
    | none =>
      match utf8Lead? byte with
      | none => .error ⟨byte, place, 1, .invalidStart⟩
      | some lead =>
        if lead.following = 0 then decodeFrom (place + 1) none (Char.ofNat lead.bits :: done) rest
        else
          decodeFrom (place + 1)
            (some ⟨byte, place, 1, lead.bits, lead.following, lead.low, lead.high⟩) done rest
    | some p =>
      if p.low ≤ byte.toNat && byte.toNat ≤ p.high then
        let bits := p.bits * 0x40 + byte.toNat % 0x40
        if p.missing ≤ 1 then decodeFrom (place + 1) none (Char.ofNat bits :: done) rest
        else
          decodeFrom (place + 1)
            (some ⟨p.first, p.start, p.count + 1, bits, p.missing - 1, 0x80, 0xBF⟩) done rest
      else .error ⟨p.first, p.start, p.count, .invalidContinuation⟩

/-- The characters that bytes stand for. -/
def decodeUtf8 (bytes : List UInt8) : Except Utf8Fault (List Char) :=
  decodeFrom 0 none [] bytes

end BasicSyntax.Text
