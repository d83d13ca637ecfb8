import TapeReduction.Table.Basic
import TapeReduction.Tape
import TapeReduction.Trace

/-!
# Machines

A machine is a table at work on tapes.  It starts in state 0.  A step reads what
is under the heads; without a rule for it the machine rejects and its state
stays, otherwise it writes, moves and goes to the target, and accepts if that is
the last state of the table.  A machine that has halted does not step any more.

A run steps a machine until it halts or has made a number of steps, and keeps
the states it went through.  Without such a number it goes on until the machine
halts, and ends only if it does.
-/

namespace TapeReduction

/-- A machine at a moment of its run. -/
structure Config (σ : Type) where
  state : Nat
  tapes : σ
  /-- The number of steps made since the tapes were loaded. -/
  steps : Nat
  /-- How the machine halted, if it has. -/
  halted : Option Verdict

/-- A machine in a state with tapes just loaded. -/
def Config.load {σ : Type} (state : Nat) (tapes : σ) : Config σ :=
  ⟨state, tapes, 0, none⟩

/-- A one-tape machine on an input. -/
def Config.oneTape (input : List Symbol) : Config OneTape :=
  .load 0 (.ofList (input.map .plain))

/-- A two-tape machine on two inputs. -/
def Config.twoTapes (first second : List Symbol) : Config TwoTapes :=
  .load 0 (.ofList first, .ofList second)

namespace Table

variable {κ δ σ : Type} [Alphabet κ] [Tapes σ κ δ]

/-- What halts a machine that goes to a state. -/
def verdictAt (t : Table κ δ) (state : Nat) : Option Verdict :=
  if state = t.accepting then some (.accept state) else none

/-- One step of a machine. -/
@[specialize]
def step (t : Table κ δ) (c : Config σ) : Config σ :=
  match c with
  | ⟨state, tapes, steps, some verdict⟩ => ⟨state, tapes, steps, some verdict⟩
  | ⟨state, tapes, steps, none⟩ =>
    let settled := Tapes.settle tapes
    match t.rule? state (Tapes.scan settled) with
    | none => ⟨state, settled, steps, some .reject⟩
    | some rule =>
      ⟨rule.target, Tapes.act rule.write rule.move settled, steps + 1,
        t.verdictAt rule.target⟩

/-- A machine that has halted stays as it is. -/
theorem step_of_halted (t : Table κ δ) {c : Config σ} (h : c.halted.isSome) :
    t.step c = c := by
  obtain ⟨state, tapes, steps, halted⟩ := c
  cases halted with
  | none => cases h
  | some verdict => rfl

/-- A step that does not halt the machine counts. -/
theorem steps_step_of_running (t : Table κ δ) {c : Config σ}
    (h : (t.step c).halted = none) : (t.step c).steps = c.steps + 1 := by
  obtain ⟨state, tapes, steps, halted⟩ := c
  cases halted with
  | some verdict => cases h
  | none =>
    simp only [step] at h ⊢
    split at h
    · cases h
    · rfl

/-- At most `fuel` steps of a machine, stopping when it halts; `seen` are the
states it went through before, latest first. -/
@[specialize]
def drive (t : Table κ δ) (seen : List Nat) (c : Config σ) : Nat → Trace × Config σ
  | 0 => (⟨seen.reverse, none⟩, c)
  | fuel + 1 =>
    let next := t.step c
    match next.halted with
    | some verdict => (⟨seen.reverse, some verdict⟩, next)
    | none => t.drive (next.state :: seen) next fuel

/-- Runs a machine on until it halts or has made `limit` steps since its tapes were
loaded.  A machine that has made them already is given up even if it has halted. -/
@[specialize]
def resume (t : Table κ δ) (limit : Nat) (c : Config σ) : Trace × Config σ :=
  t.drive [] c (limit - c.steps)

/-- Runs a machine on until it halts; `seen` are the states it went through before, latest
first.  There is no answer if the machine never halts. -/
@[specialize]
def finish (t : Table κ δ) (seen : List Nat) (c : Config σ) : Option (Trace × Config σ) :=
  let next := t.step c
  match next.halted with
  | some verdict => some (⟨seen.reverse, some verdict⟩, next)
  | none => t |>.finish (next.state :: seen) next
partial_fixpoint

/-- Runs a machine on, with a limit or without one. -/
@[specialize]
def proceed (t : Table κ δ) (limit : Option Nat) (c : Config σ) : Option (Trace × Config σ) :=
  match limit with
  | some limit => some (t.resume limit c)
  | none => t.finish [] c

/-- Steps a machine until it is in a state, halts or has made `fuel` steps more, and
says whether it came to be in the state.  A machine that halts on the way has not come
there, even if it is the state it halts in. -/
@[specialize]
def driveTo (t : Table κ δ) (state : Nat) (c : Config σ) : Nat → Bool × Config σ
  | 0 => (c.state == state, c)
  | fuel + 1 =>
    if c.state = state then (true, c)
    else
      let next := t.step c
      match next.halted with
      | some _ => (false, next)
      | none => t.driveTo state next fuel

end Table

end TapeReduction
