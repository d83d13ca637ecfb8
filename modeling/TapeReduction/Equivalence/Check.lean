import TapeReduction.Encoding
import TapeReduction.Reduction.Lockstep
import TapeReduction.Table.Printer

/-!
# Checking a reduction

A two-tape table and its reduced table are run on the same input.  An input on
which the two-tape machine does not halt within a limit tells nothing; on any
other, the reduced machine has to end the same way.

A check goes through all inputs up to a length, shortest first and in ascending order
within a length.  The inputs of a length are counted through: each is a number
written in binary.
-/

namespace TapeReduction.Equivalence

/-! ## Short inputs -/

/-- The input symbol for a binary digit of a number; place 0 is the last one. -/
def digitSymbol (number place : Nat) : Symbol :=
  Symbol.inputs.get ⟨(number >>> place) &&& 1,
    Nat.lt_of_le_of_lt Nat.and_le_right (by decide)⟩

/-- The last binary digits of a number, `length` of them, as an input. -/
def inputOfNumber (length number : Nat) : List Symbol :=
  (List.range length).map fun i => digitSymbol number (length - 1 - i)

/-- The inputs of a length, in ascending order. -/
def inputsOfLength (length : Nat) : List (List Symbol) :=
  (List.range (1 <<< length)).map (inputOfNumber length)

/-- The inputs of at most a length. -/
def inputsUpTo (maxLength : Nat) : List (List Symbol) :=
  (List.range (maxLength + 1)).flatMap inputsOfLength

/-! ## Comparing two machines -/

/-- How far a check goes. -/
structure Settings where
  /-- The length of the longest inputs. -/
  maxLength : Nat := 6
  /-- The steps after which a run of the two-tape machine is given up. -/
  stepLimit : Nat := 10000
  deriving DecidableEq

/-- A table with the table reduced from it, and how far to check them. -/
structure Pairing where
  two : TwoTapeTable
  one : OneTapeTable
  settings : Settings

/-- A table paired with the table reduced from it. -/
def Pairing.ofTable (two : TwoTapeTable) (settings : Settings) : Except Fault Pairing := do
  let one ← reduce two
  return ⟨two, one, settings⟩

/-- Two runs on an input that end differently, with the texts of their tables. -/
structure Counterexample where
  input : List Symbol
  twoTable : String
  twoTrace : Trace
  oneTable : String
  oneTrace : Trace
  deriving DecidableEq

/-- What an input tells about two tables. -/
inductive Comparison where
  | agree
  | undetermined
  | differ (counterexample : Counterexample)
  deriving DecidableEq

/-- Whether two runs end the same way. -/
def sameVerdict (t u : Trace) : Bool :=
  t.accepts == u.accepts && t.rejects == u.rejects

/-- Runs both tables on an input. -/
def Pairing.compare (p : Pairing) (input : List Symbol) : Comparison :=
  let (twoTrace, last) := p.two.resume p.settings.stepLimit (.twoTapes input [])
  if twoTrace.undetermined then .undetermined
  else
    let (oneTrace, _) :=
      p.one.resume (stepBound input.length last.steps) (.oneTape input)
    if sameVerdict twoTrace oneTrace then .agree
    else .differ ⟨input, p.two.render, twoTrace, p.one.render, oneTrace⟩

/-- The counterexample an input gives, if it does. -/
def Pairing.counterexample? (p : Pairing) (input : List Symbol) : Option Counterexample :=
  match p.compare input with
  | .differ counterexample => some counterexample
  | _ => none

/-- What a check found. -/
structure Report where
  /-- The number of inputs on which the runs were compared. -/
  checked : Nat
  /-- The number of inputs on which the two-tape machine was given up. -/
  undetermined : Nat
  maxLength : Nat
  counterexample : Option Counterexample
  deriving DecidableEq

/-- Whether no input told the tables apart. -/
def Report.equivalent (r : Report) : Bool :=
  r.counterexample.isNone

/-- Compares the runs on one input after the other, up to the first counterexample. -/
def Pairing.checkInputs (p : Pairing) (report : Report) : List (List Symbol) → Report
  | [] => report
  | input :: rest =>
    match p.compare input with
    | .agree => p.checkInputs { report with checked := report.checked + 1 } rest
    | .undetermined =>
      p.checkInputs { report with undetermined := report.undetermined + 1 } rest
    | .differ counterexample =>
      { report with checked := report.checked + 1, counterexample := some counterexample }

/-- Checks all inputs up to the longest length. -/
def Pairing.check (p : Pairing) : Report :=
  p.checkInputs ⟨0, 0, p.settings.maxLength, none⟩ (inputsUpTo p.settings.maxLength)

/-- A line between parts of a counterexample. -/
def ruleLine : String :=
  String.ofList (List.replicate 50 '~')

/-- A counterexample in text: each table with its trace, then the input. -/
def Counterexample.render (c : Counterexample) : String :=
  c.twoTable ++ "\n" ++ ruleLine ++ "\n" ++ c.twoTrace.render ++ "\n" ++
    c.oneTable ++ "\n" ++ ruleLine ++ "\n" ++ c.oneTrace.render ++ "\n" ++
    "COMPARISON FAILED ON STRING \"" ++ Symbol.render c.input ++ "\""

/-- A report in text. -/
def Report.render (r : Report) : String :=
  match r.counterexample with
  | some counterexample => counterexample.render
  | none =>
    "no counterexample up to length " ++ toString r.maxLength ++ " (" ++
      toString r.checked ++ " checked, " ++ toString r.undetermined ++ " undetermined)"

end TapeReduction.Equivalence
