import TapeReduction.Text.Decimal

/-!
# Traces

The record of a run: the states it went through and how it ended.
-/

namespace TapeReduction

/-- How a machine halts. -/
inductive Verdict where
  /-- It went to the accepting state, which is given. -/
  | accept (state : Nat)
  /-- It had no rule for what it read. -/
  | reject
  deriving DecidableEq

/-- The states a run went through after its start, without the accepting one, and
how it halted, or nothing if it was given up. -/
structure Trace where
  states : List Nat
  verdict : Option Verdict
  deriving DecidableEq

namespace Trace

/-- Whether the run accepted. -/
def accepts (t : Trace) : Bool :=
  match t.verdict with
  | some (.accept _) => true
  | _ => false

/-- Whether the run rejected. -/
def rejects (t : Trace) : Bool :=
  t.verdict = some .reject

/-- Whether the run was given up. -/
def undetermined (t : Trace) : Bool :=
  t.verdict = none

/-- How a run ended: the accepting state, `-1` for a rejection, `?` for a run given up. -/
def verdictChars : Option Verdict → List Char
  | some (.accept state) => Text.digits state
  | some .reject => ['-', '1']
  | none => ['?']

/-- The text of a trace, as characters: a line for each state, then how the run ended. -/
def chars (t : Trace) : List Char :=
  (t.states.flatMap fun state => Text.digits state ++ ['\n']) ++ verdictChars t.verdict

/-- The text of a trace. -/
def render (t : Trace) : String :=
  String.ofList t.chars

end Trace

end TapeReduction
