import BasicSyntax.Text.Blank
import BasicSyntax.Text.DecimalDigit
import BasicSyntax.Text.Quoted

/-! # Integers as text — with a bound on their length

    An integer is an optional sign and decimal digits of any script, between two of which one
    low line may stand; space around it is dropped.  No more than `digitLimit` digits are read,
    leading zeros counted; a longer run of digits is refused for its length, whatever stands
    behind it.  Nor are more digits written. -/

namespace BasicSyntax.Text

/-- The most digits that an integer given or written as text may have. -/
def digitLimit : Nat := 4300

/-- Why a text is no integer. -/
inductive IntegerFault
  | tooLong (digits : Nat)
  | notInteger (text : String)
  deriving DecidableEq, Repr

/-- The complaint about an integer of too many digits. -/
def tooLongMessage (digits : Nat) : String :=
  s!"Exceeds the limit ({digitLimit} digits) for integer string conversion: value has " ++
    s!"{digits} digits; use sys.set_int_max_str_digits() to increase the limit"

/-- Whether an integer has few enough digits to be written; its sign does not count. -/
def isWritable (value : Int) : Bool :=
  (toString value.natAbs).length ≤ digitLimit

/-- The complaint about an integer that has too many digits to be written. -/
def notWritableMessage : String :=
  s!"Exceeds the limit ({digitLimit} digits) for integer string conversion; " ++
    "use sys.set_int_max_str_digits() to increase the limit"

/-- The complaint in words; of the text that is no integer, at most the first two hundred
    characters of its quoted form are shown. -/
def IntegerFault.message : IntegerFault → String
  | .tooLong digits => tooLongMessage digits
  | .notInteger text =>
    "invalid literal for int() with base 10: " ++
      String.ofList ((quotedChars text.toList).take 200)

/-- The values of a run of digits between two of which one low line may stand; `afterDigit`
    tells whether a low line may come next. -/
def digitValues? (afterDigit : Bool) : List Char → Option (List Nat)
  | [] => if afterDigit then some [] else none
  | c :: rest =>
    if c == '_' then if afterDigit then digitValues? false rest else none
    else match decimalValue? c with
      | none => none
      | some value => (digitValues? true rest).map (value :: ·)

/-- The number that decimal digits stand for. -/
def ofDigits (digits : List Nat) : Nat :=
  digits.foldl (fun number digit => 10 * number + digit) 0

/-- Take a sign off the front of a text; `true` is the minus. -/
def takeSign : List Char → Bool × List Char
  | '-' :: rest => (true, rest)
  | '+' :: rest => (false, rest)
  | rest => (false, rest)

/-- Whether a character may be part of a run of digits. -/
def isDigitOrLowLine (c : Char) : Bool :=
  c == '_' || isDecimalDigit c

/-- Read an integer. -/
def readInteger (text : String) : Except IntegerFault Int :=
  let (negative, body) := takeSign (text.toList.dropWhile isNumeralSpace)
  match digitValues? false (body.takeWhile isDigitOrLowLine) with
  | none => .error (.notInteger text)
  | some digits =>
    if digitLimit < digits.length then .error (.tooLong digits.length)
    else if (body.dropWhile isDigitOrLowLine).all isNumeralSpace then
      let number : Int := ofDigits digits
      .ok (if negative then -number else number)
    else .error (.notInteger text)

end BasicSyntax.Text
