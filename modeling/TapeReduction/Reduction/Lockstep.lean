import TapeReduction.Reduction.Program

/-!
# Lockstep

A two-tape machine and its reduced machine side by side.  Whenever the reduced
machine starts on the block of the state the two-tape machine is in, the two are
said to meet, and the two-tape machine makes a step.

If the two-tape machine halts, the reduced machine halts within a number of steps
that depends on the length of the input and the steps of the two-tape machine only.
-/

namespace TapeReduction.Reduction

/-- Two machines at a moment of their runs. -/
structure Meeting where
  one : Config OneTape
  two : Config TwoTapes

/-- The meetings within a number of steps of the reduced machine, and where both machines
are afterwards. -/
def meetings (two : TwoTapeTable) (one : OneTapeTable) (met : List Meeting) (now : Meeting) :
    Nat → List Meeting × Meeting
  | 0 => (met.reverse, now)
  | fuel + 1 =>
    let next := one.step now.one
    if next.halted.isSome then (met.reverse, ⟨next, now.two⟩)
    else if next.state = entry now.two.state then
      meetings two one (⟨next, now.two⟩ :: met) ⟨next, two.step now.two⟩ fuel
    else
      meetings two one met ⟨next, now.two⟩ fuel

/-- The lockstep of a table and its reduced table on an input. -/
def lockstep (two : TwoTapeTable) (one : OneTapeTable) (input : List Symbol) (limit : Nat) :
    List Meeting × Meeting :=
  meetings two one [] ⟨.oneTape input, .twoTapes input []⟩ limit

end TapeReduction.Reduction

namespace TapeReduction.Equivalence

/-- The length of the laid-out tape before the first block. -/
def layoutLength (inputLength : Nat) : Nat :=
  max inputLength 1 + 4

/-- A number of steps within which the reduced machine halts.  Laying out the tape walks it
twice.  The tape grows by at most two cells in a block, and a block walks it at most
four times. -/
def stepBound (inputLength steps : Nat) : Nat :=
  let blocks := steps + 1
  let widest := layoutLength inputLength + 2 * blocks
  2 * layoutLength inputLength + blocks * (4 * widest + 16)

end TapeReduction.Equivalence
