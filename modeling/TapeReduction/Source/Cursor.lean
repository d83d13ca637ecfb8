import TapeReduction.Alphabet
import TapeReduction.Source.Issue
import TapeReduction.Text.Decimal
import TapeReduction.Text.Excerpt

/-!
# Tokens of a table's text

A cursor is a place in a text: how many characters are behind it and which are
ahead.  Spaces, tabs and comments may stand between any two tokens and are
never required; a comment runs from `#` to the end of its line.  A token that is
not there leaves the reader stuck at a place, with the tokens it looked for.
-/

namespace TapeReduction.Source

open Text

/-- A place in a text. -/
structure Cursor where
  offset : Nat
  rest : List Char

/-- Why reading stopped: the place, and the tokens that could have stood there. -/
structure Stuck where
  offset : Nat
  expected : List Token
  deriving DecidableEq

/-- The first place ahead that does not hold a space, a tab or a comment, and no
line break either if `breaks` is set. -/
def skipBlanks (breaks comment : Bool) : Nat → List Char → Cursor
  | offset, [] => ⟨offset, []⟩
  | offset, c :: rest =>
    if isBreak c then
      if breaks then skipBlanks breaks false (offset + 1) rest
      else ⟨offset, c :: rest⟩
    else if comment || c = ' ' || c = '\t' then
      skipBlanks breaks comment (offset + 1) rest
    else if c = '#' then
      skipBlanks breaks true (offset + 1) rest
    else
      ⟨offset, c :: rest⟩

namespace Cursor

/-- The start of a text. -/
def start (text : List Char) : Cursor :=
  ⟨0, text⟩

/-- Past spaces, tabs and comments. -/
def skip (c : Cursor) : Cursor :=
  skipBlanks false false c.offset c.rest

/-- Past spaces, tabs, comments and line breaks. -/
def skipLines (c : Cursor) : Cursor :=
  skipBlanks true false c.offset c.rest

end Cursor

/-- A number as it is written, and the place where it starts. -/
structure Numeral where
  start : Nat
  digits : List Char

/-- The place after a number. -/
def Numeral.stop (n : Numeral) : Nat :=
  n.start + n.digits.length

/-- The value of a number, if it fits in a machine word. -/
def Numeral.value? (n : Numeral) : Option Nat :=
  wordOfDigits 0 n.digits

/-- The longest run of digits ahead. -/
def readNumeral (token : Token) (c : Cursor) : Except Stuck (Numeral × Cursor) :=
  match c.rest.takeWhile Char.isDigit with
  | [] => .error ⟨c.offset, [token]⟩
  | digits =>
    .ok (⟨c.offset, digits⟩, ⟨c.offset + digits.length, c.rest.dropWhile Char.isDigit⟩)

/-- The value that the next character stands for. -/
def readGlyph {α : Type} (token : Token) (ofChar? : Char → Option α) (c : Cursor) :
    Except Stuck (α × Cursor) :=
  match c.rest with
  | [] => .error ⟨c.offset, [token]⟩
  | x :: rest =>
    match ofChar? x with
    | some a => .ok (a, ⟨c.offset + 1, rest⟩)
    | none => .error ⟨c.offset, [token]⟩

/-- Values that can be read from a run of one-character tokens. -/
class Legible (α : Type) where
  read : Cursor → Except Stuck (α × Cursor)

instance : Legible Symbol where
  read := readGlyph .plain Symbol.ofChar?

instance : Legible Cell where
  read := readGlyph .symbol Cell.ofChar?

instance : Legible Move where
  read := readGlyph .direction Move.ofChar?

/-- A pair is read part by part. -/
instance {α β : Type} [Legible α] [Legible β] : Legible (α × β) where
  read c := do
    let (a, c) ← Legible.read c
    let (b, c) ← Legible.read c.skip
    return ((a, b), c)

end TapeReduction.Source
