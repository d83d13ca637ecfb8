import TapeReduction.Alphabet

/-!
# Tapes

A tape has a first cell and no last one.  Only a finite part of it is kept: the
cells that were loaded and those up to where a head has read.  Everything beyond
is blank.  A head on the first cell that is told to move left stays there.
-/

namespace TapeReduction

/-- The kept part of a tape, and the position of its head. -/
structure Tape {α : Type} (blank : α) where
  cells : Array α := #[]
  head : Nat := 0

namespace Tape

variable {α : Type} {blank : α}

/-- A tape with content from its first cell on, and its head there. -/
def ofList (content : List α) : Tape blank :=
  ⟨content.toArray, 0⟩

/-- The tape with other content from its first cell on, and its head there. -/
def load (content : List α) (t : Tape blank) : Tape blank :=
  { t with cells := content.toArray, head := 0 }

/-- The tape with its kept part reaching to the head. -/
def settle (t : Tape blank) : Tape blank :=
  if t.head < t.cells.size then t
  else ⟨t.cells ++ Array.replicate (t.head + 1 - t.cells.size) blank, t.head⟩

/-- The content of the cell under the head. -/
def scan (t : Tape blank) : α :=
  t.cells.getD t.head blank

/-- The tape with the cell under the head overwritten. -/
def write (a : α) (t : Tape blank) : Tape blank :=
  ⟨t.settle.cells.setIfInBounds t.head a, t.head⟩

/-- The tape with its head moved. -/
def shift (m : Move) (t : Tape blank) : Tape blank :=
  match m with
  | .left => ⟨t.cells, t.head - 1⟩
  | .right => ⟨t.cells, t.head + 1⟩

/-- The content of a position, kept or not. -/
def get (t : Tape blank) (position : Nat) : α :=
  t.cells.getD position blank

@[simp]
theorem head_settle (t : Tape blank) : t.settle.head = t.head := by
  unfold settle
  split <;> rfl

theorem size_cells_settle (t : Tape blank) :
    t.settle.cells.size = max t.cells.size (t.head + 1) := by
  unfold settle
  split
  · omega
  · simp only [Array.size_append, Array.size_replicate]
    omega

@[simp]
theorem get_settle (t : Tape blank) (position : Nat) :
    t.settle.get position = t.get position := by
  unfold settle
  split
  · rfl
  · simp only [get, Array.getD_eq_getD_getElem?, Array.getElem?_append,
      Array.getElem?_replicate]
    by_cases hlt : position < t.cells.size
    · simp [hlt]
    · rw [if_neg hlt, Array.getElem?_eq_none (Nat.le_of_not_lt hlt)]
      split <;> rfl

@[simp]
theorem head_write (a : α) (t : Tape blank) : (t.write a).head = t.head :=
  rfl

theorem get_write (a : α) (t : Tape blank) (position : Nat) :
    (t.write a).get position = if position = t.head then a else t.get position := by
  have hlt : t.head < t.settle.cells.size := by
    rw [size_cells_settle]
    omega
  rw [← get_settle t position]
  simp only [write, get, Array.getD_eq_getD_getElem?]
  by_cases hpos : position = t.head
  · subst hpos
    simp [hlt]
  · rw [if_neg hpos, Array.getElem?_setIfInBounds_ne (Ne.symm hpos)]

@[simp]
theorem get_shift (m : Move) (t : Tape blank) (position : Nat) :
    (t.shift m).get position = t.get position := by
  cases m <;> rfl

end Tape

/-- Tapes with heads on them: what is under the heads, and what becomes of the
tapes when it is overwritten and the heads move. -/
class Tapes (σ : Type) (κ δ : outParam Type) where
  settle : σ → σ
  scan : σ → κ
  act : κ → δ → σ → σ

/-- One tape. -/
instance {α : Type} {blank : α} : Tapes (Tape blank) α Move where
  settle := Tape.settle
  scan := Tape.scan
  act a m t := (t.write a).shift m

/-- Two collections of tapes side by side, each read, written and moved on its own. -/
instance {σ κ δ τ μ ε : Type} [Tapes σ κ δ] [Tapes τ μ ε] :
    Tapes (σ × τ) (κ × μ) (δ × ε) where
  settle p := (Tapes.settle p.1, Tapes.settle p.2)
  scan p := (Tapes.scan p.1, Tapes.scan p.2)
  act k m p := (Tapes.act k.1 m.1 p.1, Tapes.act k.2 m.2 p.2)

/-- The tape of a one-tape machine. -/
abbrev OneTape := Tape Cell.blank

/-- The tapes of a two-tape machine. -/
abbrev TwoTapes := Tape Symbol.blank × Tape Symbol.blank

end TapeReduction
