import TapeReduction.Machine

/-!
# Operating a machine

A machine in use is told to load tapes, to step and to run, and is used for one run
after the other.  Loading puts new content on the tapes it has, and clears what the
last run left in it.
-/

namespace TapeReduction

/-- Tapes that can be loaded: the content of each is replaced, and its head goes back to
the first cell. -/
class Loadable (σ : Type) (γ : outParam Type) where
  /-- The tapes of a machine that has just been made. -/
  fresh : σ
  /-- No content for any tape. -/
  nothing : γ
  load : γ → σ → σ

instance {α : Type} {blank : α} : Loadable (Tape blank) (List α) where
  fresh := {}
  nothing := []
  load := Tape.load

instance {σ γ τ ε : Type} [Loadable σ γ] [Loadable τ ε] : Loadable (σ × τ) (γ × ε) where
  fresh := (Loadable.fresh, Loadable.fresh)
  nothing := (Loadable.nothing σ, Loadable.nothing τ)
  load content tapes := (Loadable.load content.1 tapes.1, Loadable.load content.2 tapes.2)

namespace Config

variable {σ γ : Type} [Loadable σ γ]

/-- A machine that has just been made: in state 0, on tapes without content. -/
def fresh : Config σ :=
  ⟨0, Loadable.fresh, 0, none⟩

/-- The machine back in state 0, its tapes emptied. -/
def reset (c : Config σ) : Config σ :=
  { c with
    state := 0
    tapes := Loadable.load (Loadable.nothing σ) c.tapes
    steps := 0
    halted := none }

/-- The machine in a state, with other content on its tapes. -/
def reload (c : Config σ) (state : Nat) (content : γ) : Config σ :=
  let cleared := c.reset
  { cleared with
    state := state
    tapes := Loadable.load content cleared.tapes }

end Config

/-- What a machine can be told to do.  Tapes are given by their content. -/
inductive Command (γ : Type) where
  /-- Go back to state 0, on empty tapes. -/
  | reset
  /-- Start anew in a state with this content. -/
  | load (state : Nat) (content : γ)
  /-- Make one step. -/
  | step
  /-- Make up to a number of steps, stopping when halted. -/
  | advance (count : Nat)
  /-- Go on until halted or until a number of steps was made since the last load. -/
  | resume (limit : Option Nat)
  /-- Load content in state 0 and go on. -/
  | run (content : γ) (limit : Option Nat)

/-- What a machine answers. -/
inductive Response where
  | done
  /-- Whether the last step halted the machine, or found it halted. -/
  | stepped (halted : Option Verdict)
  | traced (trace : Trace)
  deriving DecidableEq

namespace Table

variable {κ δ σ γ : Type} [Alphabet κ] [Tapes σ κ δ] [Loadable σ γ]

/-- Carries out a command.  There is no answer to one that lets the machine run forever. -/
@[specialize]
def perform (t : Table κ δ) (c : Config σ) : Command γ → Option (Response × Config σ)
  | .reset => some (.done, c.reset)
  | .load state content => some (.done, c.reload state content)
  | .step =>
    let next := t.step c
    some (.stepped next.halted, next)
  | .advance 0 => some (.done, c)
  | .advance (count + 1) =>
    let (trace, next) := t.drive [] c (count + 1)
    some (.stepped trace.verdict, next)
  | .resume limit => do
    let (trace, next) ← t.proceed limit c
    return (.traced trace, next)
  | .run content limit => do
    let (trace, next) ← t.proceed limit (c.reload 0 content)
    return (.traced trace, next)

end Table

end TapeReduction
