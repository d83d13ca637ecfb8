import TapeReduction.Equivalence.Check
import TapeReduction.Session

/-!
# Checking with two machines

A check is made with one machine for each table, which are loaded again for every
input.
-/

namespace TapeReduction.Equivalence

/-- The machines of a check, as the last input left them. -/
structure Bench where
  two : Config TwoTapes
  one : Config OneTape

/-- Machines that have just been made. -/
def Bench.fresh : Bench :=
  ⟨.fresh, .fresh⟩

/-- Runs both machines on an input.  If the two-tape machine is given up, the other one is
left as it was. -/
def Pairing.compareOn (p : Pairing) (b : Bench) (input : List Symbol) : Comparison × Bench :=
  let (twoTrace, two) := p.two.resume p.settings.stepLimit (b.two.reload 0 (input, []))
  if twoTrace.undetermined then (.undetermined, ⟨two, b.one⟩)
  else
    let (oneTrace, one) :=
      p.one.resume (stepBound input.length two.steps) (b.one.reload 0 (plainCells input))
    if sameVerdict twoTrace oneTrace then (.agree, ⟨two, one⟩)
    else (.differ ⟨input, p.two.render, twoTrace, p.one.render, oneTrace⟩, ⟨two, one⟩)

/-- Runs both machines on one input after the other, up to the first counterexample. -/
def Pairing.checkInputsOn (p : Pairing) (b : Bench) (report : Report) :
    List (List Symbol) → Report
  | [] => report
  | input :: rest =>
    match p.compareOn b input with
    | (.agree, next) =>
      p.checkInputsOn next { report with checked := report.checked + 1 } rest
    | (.undetermined, next) =>
      p.checkInputsOn next { report with undetermined := report.undetermined + 1 } rest
    | (.differ counterexample, _) =>
      { report with checked := report.checked + 1, counterexample := some counterexample }

/-- Checks all inputs up to the longest length with two machines. -/
def Pairing.checkOn (p : Pairing) (b : Bench) : Report :=
  p.checkInputsOn b ⟨0, 0, p.settings.maxLength, none⟩ (inputsUpTo p.settings.maxLength)

end TapeReduction.Equivalence
