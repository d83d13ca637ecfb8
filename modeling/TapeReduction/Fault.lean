import TapeReduction.Source.Issue
import TapeReduction.Text.Excerpt
import TapeReduction.Text.Quoted

/-!
# Faults

Every reason for which an operation of this library refuses its input, by
cause, and the message of each.
-/

namespace TapeReduction

/-- The largest text of a table, in bytes. -/
def maxTableBytes : Nat :=
  1048576

/-- What makes a table unsound. -/
inductive Flaw where
  | noStates
  /-- The rules whose target is not a state, as pairs of source and target. -/
  | undefinedTargets (targets : List (Nat × Nat))
  /-- The accepting state, which is the last one, has a rule. -/
  | acceptingRules (state : Nat)
  | oversize (bytes : Nat)
  /-- A text that was read holds no table at all. -/
  | emptyDefinition
  | rowCount (expected found : Nat)
  /-- No bundled machine has the name. -/
  | unknownMachine (name : String)
  deriving DecidableEq

/-- What keeps a tape from carrying two tapes. -/
inductive Garble where
  | noLeadingSeparator
  | separators (found : Nat)
  | trailingCells
  /-- The region of the tape with this number does not have one head. -/
  | heads (number found : Nat)
  /-- The region of the tape with this number has a separator in it. -/
  | separatorInside (number : Nat)
  deriving DecidableEq

/-- Why a file or a folder cannot be read. -/
inductive Obstacle where
  | missing
  | notFolder
  | isFolder
  | notText
  /-- A name in the path, or the path itself, is longer than a disk allows. -/
  | tooLong
  /-- The path has a null character in it. -/
  | nullChar
  deriving DecidableEq

/-- The cause of a refusal. -/
inductive Fault where
  | invalidState (state : Nat)
  | duplicateRule (state : Nat) (key : String)
  | unknownSymbol (char : Char)
  | unknownMove (char : Char)
  | unreadable (place : Text.Excerpt) (issue : Source.Issue)
  | unsound (flaw : Flaw)
  | garbled (garble : Garble)
  | fileUnread (path : String) (obstacle : Obstacle)
  | folderUnread (path : String) (obstacle : Obstacle)
  | tableUnloaded (path : String) (cause : Fault)
  | badSettings
  deriving DecidableEq

/-- Pairs of numbers in words: `[(0, 5), (1, 7)]`. -/
def renderPairs (pairs : List (Nat × Nat)) : String :=
  "[" ++ ", ".intercalate
    (pairs.map fun p => "(" ++ toString p.1 ++ ", " ++ toString p.2 ++ ")") ++ "]"

/-- The message of a flaw. -/
def Flaw.message : Flaw → String
  | .noStates => "Table has no states"
  | .undefinedTargets targets =>
    "Transitions reference undefined states: " ++ renderPairs targets
  | .acceptingRules state =>
    "Accept state " ++ toString state ++ " must not have outgoing transitions"
  | .oversize bytes =>
    "Table text is " ++ toString bytes ++ " bytes, the limit is " ++ toString maxTableBytes
  | .emptyDefinition => "Empty table definition"
  | .rowCount expected found =>
    "Expected " ++ toString expected ++ " state rows, found " ++ toString found
  | .unknownMachine name => "Machine \x27" ++ name ++ "\x27 not found"

/-- The message of a garbled tape. -/
def Garble.message : Garble → String
  | .noLeadingSeparator => "Encoded tape must start with a separator"
  | .separators found => "Expected 3 separators, found " ++ toString found
  | .trailingCells => "Non-blank cells after the last separator"
  | .heads number found =>
    "Tape " ++ toString number ++ " region has " ++ toString found ++ " head markers"
  | .separatorInside number => "Separator inside tape " ++ toString number ++ " region"

/-- The message of an obstacle. -/
def Obstacle.message : Obstacle → String
  | .missing => "No such file or directory (os error 2)"
  | .notFolder => "Not a directory (os error 20)"
  | .isFolder => "Is a directory (os error 21)"
  | .notText => "stream did not contain valid UTF-8"
  | .tooLong => "File name too long (os error 36)"
  | .nullChar => "file name contained an unexpected NUL byte"

/-- The message of a fault. -/
def Fault.message : Fault → String
  | .invalidState state => "Invalid state: " ++ toString state
  | .duplicateRule state key =>
    "Duplicate transition for state " ++ toString state ++ " on " ++ key
  | .unknownSymbol char => "Unknown symbol: " ++ Text.quote char
  | .unknownMove char => "Unknown direction: " ++ Text.quote char
  | .unreadable place issue => "Table parsing error: " ++ place.render issue.message
  | .unsound flaw => "Table validation error: " ++ flaw.message
  | .garbled garble => "Tape encoding error: " ++ garble.message
  | .fileUnread path obstacle =>
    "File error: Failed to read file " ++ path ++ ": " ++ obstacle.message
  | .folderUnread path obstacle =>
    "File error: Failed to read directory " ++ path ++ ": " ++ obstacle.message
  | .tableUnloaded path cause =>
    "File error: Failed to load table from " ++ path ++ ": " ++ cause.message
  | .badSettings => "Configuration error"

end TapeReduction
