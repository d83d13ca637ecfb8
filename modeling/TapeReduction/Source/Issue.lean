/-!
# What can be wrong with the text of a table

A reader that cannot go on names the tokens it could have used.  A text that
reads as a table may still hold a number that does not fit, or a row that does
not hold the number of entries it declares.
-/

namespace TapeReduction.Source

/-- A kind of token in the text of a table. -/
inductive Token where
  | endOfInput
  | count
  | index
  | plain
  | symbol
  | direction
  deriving DecidableEq

/-- The name of a kind of token in messages. -/
def Token.name : Token → String
  | .endOfInput => "EOI"
  | .count => "count"
  | .index => "index"
  | .plain => "plain"
  | .symbol => "symbol"
  | .direction => "direction"

/-- What is wrong at a place in the text of a table. -/
inductive Issue where
  /-- None of these tokens is there. -/
  | expected (tokens : List Token)
  /-- A count that no machine word holds. -/
  | countTooLarge
  /-- A state that no machine word holds. -/
  | indexTooLarge
  /-- A row with another number of entries than it declares. -/
  | entryCount (state declared listed : Nat)
  /-- A rule that ends before all its parts have been seen. -/
  | endOfRule
  /-- A token without characters. -/
  | emptyToken
  deriving DecidableEq

/-- Alternatives in words: `A`, `A or B`, `A, B, or C`. -/
def alternatives : List String → String
  | [] => ""
  | [a] => a
  | [a, b] => a ++ " or " ++ b
  | names => ", ".intercalate names.dropLast ++ ", or " ++ names.getLast?.getD ""

/-- The message of an issue. -/
def Issue.message : Issue → String
  | .expected tokens => "expected " ++ alternatives (tokens.map Token.name)
  | .countTooLarge => "Count out of range"
  | .indexTooLarge => "State index out of range"
  | .entryCount state declared listed =>
    "State " ++ toString state ++ " declares " ++ toString declared ++
      " transitions but lists " ++ toString listed
  | .endOfRule => "Unexpected end of rule"
  | .emptyToken => "Empty token"

end TapeReduction.Source
