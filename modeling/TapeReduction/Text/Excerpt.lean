/-!
# Excerpts

A place in a text, shown as the line it stands on with a mark below it.  Lines
and columns count from one, and columns count characters.
-/

namespace TapeReduction.Text

/-- Whether a character ends a line. -/
def isBreak (c : Char) : Bool :=
  c = '\n' || c = '\r'

/-- The picture of a line break, for a line whose break is itself what is wrong. -/
def picture (c : Char) : Char :=
  if c = '\n' then Char.ofNat 0x240a
  else if c = '\r' then Char.ofNat 0x240d
  else c

/-- What is marked: the place where reading stopped, or a number of columns. -/
inductive Mark where
  | point
  | columns (width : Nat)
  deriving DecidableEq

/-- The mark as it stands below the line. -/
def Mark.render : Mark → String
  | .point => "^---"
  | .columns 1 => "^"
  | .columns width => "^" ++ String.ofList (List.replicate (width - 2) '-') ++ "^"

/-- A marked place in a text. -/
structure Excerpt where
  line : Nat
  column : Nat
  /-- The line as it is shown, without its breaks. -/
  shown : List Char
  mark : Mark
  deriving DecidableEq

namespace Excerpt

/-- The part of a text since its last newline. -/
def lastLine (text : List Char) : List Char :=
  (text.reverse.takeWhile (· ≠ '\n')).reverse

/-- The part of a text up to its first newline, and the newline. -/
def firstLine (text : List Char) : List Char :=
  text.takeWhile (· ≠ '\n') ++ (text.dropWhile (· ≠ '\n')).take 1

/-- The line around an offset, its newline included. -/
def lineAround (text : List Char) (offset : Nat) : List Char :=
  lastLine (text.take offset) ++ firstLine (text.drop offset)

/-- The number of the line an offset stands on. -/
def lineNumber (text : List Char) (offset : Nat) : Nat :=
  (text.take offset).count '\n' + 1

/-- The number of the column an offset stands in. -/
def columnNumber (text : List Char) (offset : Nat) : Nat :=
  (lastLine (text.take offset)).length + 1

/-- The place where reading stopped.  If it stopped at a line break, the breaks of
the line are shown as pictures. -/
def atPoint (text : List Char) (offset : Nat) : Excerpt where
  line := lineNumber text offset
  column := columnNumber text offset
  shown :=
    if (text.drop offset).head?.any isBreak then
      (lineAround text offset).map picture
    else
      (lineAround text offset).filter (!isBreak ·)
  mark := .point

/-- A stretch of one line. -/
def ofSpan (text : List Char) (start stop : Nat) : Excerpt where
  line := lineNumber text start
  column := columnNumber text start
  shown := (lineAround text start).filter (!isBreak ·)
  mark := .columns (stop - start)

/-- The indentation that brings a mark below its column: a tab below a tab and a
space below everything else. -/
def indent (e : Excerpt) : List Char :=
  (e.shown.take (e.column - 1)).map fun c => if c = '\t' then '\t' else ' '

/-- The excerpt with a message below it. -/
def render (e : Excerpt) (message : String) : String :=
  let number := toString e.line
  let margin := String.ofList (List.replicate number.length ' ')
  margin ++ "--> " ++ number ++ ":" ++ toString e.column ++ "\n" ++
    margin ++ " |\n" ++
    number ++ " | " ++ String.ofList e.shown ++ "\n" ++
    margin ++ " | " ++ String.ofList e.indent ++ e.mark.render ++ "\n" ++
    margin ++ " |\n" ++
    margin ++ " = " ++ message

end Excerpt

end TapeReduction.Text
