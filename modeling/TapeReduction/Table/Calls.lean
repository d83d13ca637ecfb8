import TapeReduction.Table.Basic

/-!
# Drafting call by call

A draft is made by a sequence of calls, each of which adds a state or a rule.  The
calls work on one draft, which goes on being used after a call that was refused.
-/

namespace TapeReduction

/-- What can be asked of a draft. -/
inductive DraftCall (κ δ : Type) where
  /-- One more state. -/
  | addState
  /-- A rule for a key in a state. -/
  | add (state : Nat) (key : κ) (rule : Rule κ δ)

/-- Work on a draft in place.  What has been done to it stays when a fault is reported. -/
abbrev Drafting (κ δ : Type) :=
  ExceptT Fault (StateM (Draft κ δ))

variable {κ δ : Type} [DecidableEq κ] [Glyphs κ]

/-- Carries out a call.  The answer to a call for a state is the number of that state; the
answer to a call for a rule is how many states there are. -/
def Drafting.call : DraftCall κ δ → Drafting κ δ Nat
  | .addState => do
    modify Draft.addState
    return (← get).size - 1
  | .add state key rule => do
    let d ← ofExcept ((← get).add state key rule)
    set d
    return d.size

namespace Draft

/-- The answer to a call, and the draft afterwards. -/
def call (d : Draft κ δ) (c : DraftCall κ δ) : Except Fault Nat × Draft κ δ :=
  (Drafting.call c).run.run d

/-- The answers to calls one after the other, and the draft after the last one. -/
def perform (d : Draft κ δ) : List (DraftCall κ δ) → List (Except Fault Nat) × Draft κ δ
  | [] => ([], d)
  | c :: rest =>
    let (answer, next) := d.call c
    let (answers, last) := next.perform rest
    (answer :: answers, last)

end Draft

end TapeReduction
