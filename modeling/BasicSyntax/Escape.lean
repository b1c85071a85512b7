import BasicSyntax.Node.Source
import BasicSyntax.Text.Integer
import BasicSyntax.Text.Utf8

/-! # Escapes — faults that end a run

    A syntax error is told to the user, and the run goes on or ends in its own way.  The faults
    gathered here are not provided for: the run stops where it is.  A host that runs out of nested
    calls is not among them, since nothing here does. -/

namespace BasicSyntax

/-- What the log refuses to take for a level: a text that names none, or its table of styles. -/
inductive LevelFault
  | unknown (level : String)
  | styles
  deriving DecidableEq, Repr

/-- The complaint in words. -/
def LevelFault.message : LevelFault → String
  | unknown level => "Unknown level: " ++ Text.quoted level
  | styles =>
    "Level not an integer or a valid string: \x7b" ++
      "'%': (<class 'logging.PercentStyle'>, '%(levelname)s:%(name)s:%(message)s'), " ++
      "'\x7b': (<class 'logging.StrFormatStyle'>, " ++
      "'\x7blevelname\x7d:\x7bname\x7d:\x7bmessage\x7d'), " ++
      "'$': (<class 'logging.StringTemplateStyle'>, " ++
      "'$\x7blevelname\x7d:$\x7bname\x7d:$\x7bmessage\x7d')\x7d"

/-- A fault that ends a run. -/
inductive Escape
  /-- A number of too many digits, in a text that is a program otherwise. -/
  | longNumber (digits : Nat)
  /-- A tree that is not printed. -/
  | unprinted (fault : PrintFault)
  /-- A limit on nested calls that is no integer. -/
  | badLimit (fault : Text.IntegerFault)
  /-- A log level that the log refuses. -/
  | badLevel (fault : LevelFault)
  /-- A path with a character that no path can hold. -/
  | badPath
  /-- A file that holds no text. -/
  | badEncoding (fault : Text.Utf8Fault)
  deriving DecidableEq, Repr

/-- A fault in words. -/
def Escape.message : Escape → String
  | longNumber digits => Text.tooLongMessage digits
  | unprinted fault => fault.message
  | badLimit fault => fault.message
  | badLevel fault => fault.message
  | badPath => "embedded null byte"
  | badEncoding fault => fault.message

end BasicSyntax
