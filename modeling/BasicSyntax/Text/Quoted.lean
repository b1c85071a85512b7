import BasicSyntax.Text.Printable

/-! # Quoted text — a text shown unambiguously on one line

    The quote is `'`, or `"` where the text holds a `'` and no `"`.  The backslash and the
    quote in use are escaped by a backslash; newline, carriage return and tab have names; every
    other unprintable character is written by its code point, in two, four or eight digits. -/

namespace BasicSyntax.Text

/-- A number below sixteen as a digit. -/
def hexDigit (n : Nat) : Char :=
  if n < 10 then Char.ofNat ('0'.toNat + n) else Char.ofNat ('a'.toNat + (n - 10))

/-- The last `width` digits of a number to the base sixteen. -/
def hexDigits : Nat → Nat → List Char
  | 0, _ => []
  | width + 1, n => hexDigits width (n / 16) ++ [hexDigit (n % 16)]

/-- The quote that a text is shown in. -/
def quoteFor (text : List Char) : Char :=
  if text.contains '\'' && !text.contains '"' then '"' else '\''

/-- One character between the given quotes. -/
def escapeChar (quote c : Char) : List Char :=
  if c == quote || c == '\\' then ['\\', c]
  else if c == '\n' then ['\\', 'n']
  else if c == '\r' then ['\\', 'r']
  else if c == '\t' then ['\\', 't']
  else if isPrintable c then [c]
  else if c.toNat < 0x100 then '\\' :: 'x' :: hexDigits 2 c.toNat
  else if c.toNat < 0x10000 then '\\' :: 'u' :: hexDigits 4 c.toNat
  else '\\' :: 'U' :: hexDigits 8 c.toNat

/-- The quoted form of a text, as characters. -/
def quotedChars (text : List Char) : List Char :=
  let quote := quoteFor text
  quote :: (text.flatMap (escapeChar quote) ++ [quote])

/-- The quoted form of a text. -/
def quoted (text : String) : String :=
  String.ofList (quotedChars text.toList)

end BasicSyntax.Text
