import BasicSyntax.Position
import BasicSyntax.Terminal.Lexeme

/-! # Tokens — a text cut into the terminals it is written in

    A text is cut from its front, at each point into the terminal that stands there; filler is
    dropped.  Cutting goes on to the end of the text or to the first point where no terminal
    stands.  Each token keeps its own text, its offset and its position. -/

namespace BasicSyntax

/-- A terminal where it stands. -/
structure Token where
  terminal : Terminal
  text : String
  offset : Nat
  pos : Position
  deriving DecidableEq, Repr

/-- A character with which no terminal begins, where it stands. -/
structure Stray where
  char : Char
  offset : Nat
  pos : Position
  deriving DecidableEq, Repr

/-- The tokens of a text, and the character at which cutting it stopped, if it did. -/
structure Tokens where
  tokens : List Token
  stray : Option Stray
  deriving Repr

namespace Tokens

/-- A token at the front of a text, unless it is filler, before those already cut off. -/
def keep (terminal : Terminal) (length offset : Nat) (pos : Position) (text : List Char)
    (done : List Token) : List Token :=
  if terminal = .filler then done
  else ⟨terminal, String.ofList (text.take length), offset, pos⟩ :: done

/-- Cut a text that stands at an offset and a position.  The first `inside` characters belong
    to a terminal already cut off; `done` holds the tokens, the last first. -/
def cut (inside offset : Nat) (pos : Position) (done : List Token) : List Char → Tokens
  | [] => ⟨done.reverse, none⟩
  | c :: rest =>
    match inside with
    | left + 1 => cut left (offset + 1) (pos.after c) done rest
    | 0 =>
      match Terminal.first? (c :: rest) with
      | none => ⟨done.reverse, some ⟨c, offset, pos⟩⟩
      | some (terminal, length) =>
        cut (length - 1) (offset + 1) (pos.after c)
          (keep terminal length offset pos (c :: rest) done) rest

/-- Cut a text into tokens. -/
def ofText (text : List Char) : Tokens :=
  cut 0 0 Position.start [] text

end Tokens

end BasicSyntax
