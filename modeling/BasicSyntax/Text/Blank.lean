/-! # Blanks — two classes that differ

    *Space* is what surrounds a line of input or a number given as text.  *Filler* is what may
    stand between the tokens of a program: it leaves out the newline, which is a token, and
    knows no character past the first 128 code points. -/

namespace BasicSyntax.Text

/-- Whether a character is space: it is dropped at both ends of a line of input. -/
def isSpace (c : Char) : Bool :=
  let n := c.toNat
  (0x09 ≤ n && n ≤ 0x0D) || (0x1C ≤ n && n ≤ 0x20) || n == 0x85 || n == 0xA0 || n == 0x1680 ||
    (0x2000 ≤ n && n ≤ 0x200A) || n == 0x2028 || n == 0x2029 || n == 0x202F || n == 0x205F ||
    n == 0x3000

/-- Whether a character may surround a number given as text: space, but not the four
    information separators. -/
def isNumeralSpace (c : Char) : Bool :=
  isSpace c && !(0x1C ≤ c.toNat && c.toNat ≤ 0x1F)

/-- Whether a character may stand between tokens without being one: a blank, a tab, a
    vertical tab, a form feed or a carriage return. -/
def isFiller (c : Char) : Bool :=
  c == ' ' || c == '\t' || c == '\x0b' || c == '\x0c' || c == '\r'

/-- The text without the characters of a class at its end. -/
def trimEnd (drop : Char → Bool) (text : List Char) : List Char :=
  (text.reverse.dropWhile drop).reverse

/-- The text without the characters of a class at either end. -/
def trim (drop : Char → Bool) (text : List Char) : List Char :=
  trimEnd drop (text.dropWhile drop)

end BasicSyntax.Text
