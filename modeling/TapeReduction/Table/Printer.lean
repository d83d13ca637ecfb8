import TapeReduction.Table.Basic
import TapeReduction.Text.Decimal

/-!
# The text of a table

The number of states on a line of its own, then a line for each state but the
last: the number of its rules, and for each rule its key, target, written
symbols and moves, all apart by single spaces.
-/

namespace TapeReduction

open Text

variable {κ δ : Type} [Glyphs κ] [Glyphs δ]

/-- The tokens of a rule with its key. -/
def Rule.tokens (key : κ) (rule : Rule κ δ) : List (List Char) :=
  (glyphs key).map List.singleton ++ digits rule.target ::
    ((glyphs rule.write).map List.singleton ++ (glyphs rule.move).map List.singleton)

namespace Table

variable [Alphabet κ]

/-- The line of a state. -/
def rowChars (t : Table κ δ) (state : Nat) : List Char :=
  digits (t.rules state).length ++
    ((t.rules state).flatMap fun entry => entry.2.tokens entry.1).flatMap (' ' :: ·)

/-- The text of a table, as characters. -/
def chars (t : Table κ δ) : List Char :=
  digits t.size ++ (List.range t.accepting).flatMap fun state => '\n' :: t.rowChars state

/-- The text of a table. -/
def render (t : Table κ δ) : String :=
  String.ofList t.chars

/-- The line of a state, without its break. -/
def renderRow (t : Table κ δ) (state : Nat) : String :=
  String.ofList (t.rowChars state)

end Table

end TapeReduction
