import TapeReduction.Source.Cursor

/-!
# Sheets

The text of a table as written: a count, then rows on lines of their own, each a
count and entries.  A sheet keeps numbers as they are written and where they
stand; whether it makes a table is decided afterwards.

Reading never goes back.  After a row, the only ways on are another entry, a
line break and the end of the text, and a place where none of them stands is
where reading is stuck.
-/

namespace TapeReduction.Source

/-- A rule as written, with its key. -/
structure Entry (κ δ : Type) where
  key : κ
  target : Numeral
  write : κ
  move : δ

/-- The line of a state as written, and the place where it ends. -/
structure Row (κ δ : Type) where
  count : Numeral
  entries : List (Entry κ δ)
  stop : Nat

/-- The text of a table as written. -/
structure Sheet (κ δ : Type) where
  count : Numeral
  rows : List (Row κ δ)

variable {κ δ : Type} [Legible κ] [Legible δ]

/-- Reads a key, a target, written symbols and moves. -/
def readEntry (c : Cursor) : Except Stuck (Entry κ δ × Cursor) := do
  let (key, c) ← Legible.read c
  let (target, c) ← readNumeral .index c.skip
  let (write, c) ← Legible.read c.skip
  let (move, c) ← Legible.read c.skip
  return (⟨key, target, write, move⟩, c)

/-- Reads entries up to a place where none starts.  Gives the entries, the place
after the last one, and the tokens another one could have started with. -/
def readEntries (c : Cursor) (done : List (Entry κ δ)) :
    Nat → Except Stuck (List (Entry κ δ) × Cursor × List Token)
  | 0 => .ok (done.reverse, c, [])
  | fuel + 1 =>
    match readEntry c.skip with
    | .ok (entry, next) => readEntries next (entry :: done) fuel
    | .error stuck =>
      if stuck.offset = c.skip.offset then .ok (done.reverse, c, stuck.expected)
      else .error stuck

/-- A row with what was read of it.  A row without entries takes in the blanks
and the comment after its count. -/
def Row.ofEntries (count : Numeral) (entries : List (Entry κ δ)) (past : Cursor) :
    Row κ δ :=
  ⟨count, entries, if entries.isEmpty then past.skip.offset else past.offset⟩

/-- Reads rows up to the end of the text; `tokens` are those that could have gone
on with what is behind the cursor. -/
def readRows (c : Cursor) (tokens : List Token) (done : List (Row κ δ)) :
    Nat → Except Stuck (List (Row κ δ))
  | 0 => .ok done.reverse
  | fuel + 1 =>
    match c.skip.rest with
    | [] => .ok done.reverse
    | x :: _ =>
      if Text.isBreak x then
        match readNumeral .count c.skip.skipLines with
        | .error stuck =>
          if c.skip.skipLines.rest.isEmpty then .ok done.reverse
          else .error ⟨stuck.offset, .endOfInput :: stuck.expected⟩
        | .ok (count, next) =>
          match readEntries next [] fuel with
          | .error stuck => .error stuck
          | .ok (entries, past, tokens) =>
            readRows past tokens (Row.ofEntries count entries past :: done) fuel
      else
        .error ⟨c.skip.offset, .endOfInput :: tokens⟩

/-- Reads a whole text.  Each round of reading rows or entries takes at least one
character, so the length of the text bounds them. -/
def readSheet (text : List Char) : Except Stuck (Sheet κ δ) := do
  let (count, c) ← readNumeral .count (Cursor.start text).skipLines
  let rows ← readRows c [] [] (text.length + 1)
  return ⟨count, rows⟩

end TapeReduction.Source
