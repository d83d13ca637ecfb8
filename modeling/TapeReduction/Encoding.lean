import TapeReduction.Alphabet
import TapeReduction.Fault

/-!
# Two tapes on one

Two tapes are laid on one as `: first : second :`, followed by blanks.  Each
region holds the kept part of a tape, and the cell its head is on is dotted.
-/

namespace TapeReduction

/-- Two tapes and the positions of their heads. -/
structure TapePair where
  tapes : List Symbol × List Symbol
  heads : Nat × Nat
  deriving DecidableEq

/-- An input as it stands on the tape of a one-tape machine. -/
def plainCells (input : List Symbol) : List Cell :=
  input.map .plain

/-- The region of a tape: its symbols, the one at the position of the head dotted. -/
def regionAt : List Symbol → Nat → List Cell
  | [], _ => []
  | s :: rest, 0 => .dotted s :: plainCells rest
  | s :: rest, head + 1 => .plain s :: regionAt rest head

/-- Two tapes laid on one. -/
def TapePair.cells (p : TapePair) : List Cell :=
  .separator :: regionAt p.tapes.1 p.heads.1 ++
    .separator :: regionAt p.tapes.2 p.heads.2 ++ [.separator]

/-- A tape as it is laid on another: an empty one takes a blank cell, so that its head
has a cell to be on. -/
def orBlank : List Symbol → List Symbol
  | [] => [.blank]
  | tape => tape

/-- Two tapes with their heads on the first cells, laid on one. -/
def encode (first second : List Symbol) : List Cell :=
  TapePair.cells ⟨(orBlank first, orBlank second), (0, 0)⟩

/-- The cells up to the first separator, and those behind it. -/
def splitRegion (cells : List Cell) : List Cell × List Cell :=
  (cells.takeWhile (· ≠ .separator), (cells.dropWhile (· ≠ .separator)).tail)

/-- The tape in a region and the position of its head.  The number of the region is
for the message. -/
def decodeRegion (number : Nat) (region : List Cell) : Except Fault (List Symbol × Nat) :=
  if region.countP Cell.isDotted = 1 then
    match region.mapM Cell.symbol? with
    | some tape => .ok (tape, region.findIdx Cell.isDotted)
    | none => .error (.garbled (.separatorInside number))
  else
    .error (.garbled (.heads number (region.countP Cell.isDotted)))

theorem length_regionAt (tape : List Symbol) (head : Nat) :
    (regionAt tape head).length = tape.length := by
  induction tape generalizing head with
  | nil => rfl
  | cons s rest ih =>
    cases head with
    | zero => simp [regionAt, plainCells]
    | succ head => simp [regionAt, ih]

theorem separator_notMem_regionAt (tape : List Symbol) (head : Nat) :
    Cell.separator ∉ regionAt tape head := by
  induction tape generalizing head with
  | nil => simp [regionAt]
  | cons s rest ih =>
    cases head with
    | zero => simp [regionAt, plainCells]
    | succ head => simp [regionAt, ih]

theorem countP_isDotted_plainCells (tape : List Symbol) :
    (plainCells tape).countP Cell.isDotted = 0 := by
  simp [plainCells, List.countP_eq_zero, Cell.isDotted]

theorem filterMap_symbol?_plainCells (tape : List Symbol) :
    (plainCells tape).filterMap Cell.symbol? = tape := by
  induction tape with
  | nil => rfl
  | cons s rest ih =>
    simp only [plainCells, List.map_cons, List.filterMap_cons, Cell.symbol?] at ih ⊢
    rw [ih]

/-- Every cell of a stretch without a separator holds a symbol. -/
theorem mapM_symbol?_of_separator_notMem {region : List Cell} (h : Cell.separator ∉ region) :
    region.mapM Cell.symbol? = some (region.filterMap Cell.symbol?) := by
  induction region with
  | nil => rfl
  | cons c rest ih =>
    rw [List.mem_cons, not_or] at h
    have hrest := ih h.2
    cases c with
    | plain s => simp [hrest, Cell.symbol?]
    | dotted s => simp [hrest, Cell.symbol?]
    | separator => exact absurd rfl h.1

/-- A stretch without a separator and with one head on it is the region of a tape. -/
theorem decodeRegion_of_separator_notMem {region : List Cell} (number : Nat)
    (hsep : Cell.separator ∉ region) (hdots : region.countP Cell.isDotted = 1) :
    decodeRegion number region =
      .ok (region.filterMap Cell.symbol?, region.findIdx Cell.isDotted) := by
  simp [decodeRegion, hdots, mapM_symbol?_of_separator_notMem hsep]

/-- A region gives back its tape and its head. -/
theorem decodeRegion_regionAt {tape : List Symbol} {head : Nat} (number : Nat)
    (h : head < tape.length) :
    decodeRegion number (regionAt tape head) = .ok (tape, head) := by
  have hparts : (regionAt tape head).countP Cell.isDotted = 1 ∧
      (regionAt tape head).filterMap Cell.symbol? = tape ∧
      (regionAt tape head).findIdx Cell.isDotted = head := by
    induction tape generalizing head with
    | nil => exact absurd h (Nat.not_lt_zero head)
    | cons s rest ih =>
      cases head with
      | zero =>
        simp [regionAt, Cell.isDotted, Cell.symbol?, List.findIdx_cons, List.countP_cons,
          countP_isDotted_plainCells, filterMap_symbol?_plainCells]
      | succ head =>
        obtain ⟨hcount, htape, hhead⟩ := ih (Nat.lt_of_succ_lt_succ h)
        simp [regionAt, Cell.isDotted, Cell.symbol?, List.findIdx_cons, hcount, htape, hhead]
  obtain ⟨hcount, htape, hhead⟩ := hparts
  rw [decodeRegion_of_separator_notMem number (separator_notMem_regionAt tape head) hcount,
    htape, hhead]

/-- The two tapes laid on one, or what keeps the cells from being two tapes. -/
def decode (cells : List Cell) : Except Fault TapePair :=
  if cells.head? ≠ some .separator then
    .error (.garbled .noLeadingSeparator)
  else if cells.count .separator ≠ 3 then
    .error (.garbled (.separators (cells.count .separator)))
  else
    let (first, rest) := splitRegion cells.tail
    let (second, behind) := splitRegion rest
    if behind.any (· ≠ .blank) then
      .error (.garbled .trailingCells)
    else do
      let (tape1, head1) ← decodeRegion 1 first
      let (tape2, head2) ← decodeRegion 2 second
      return ⟨(tape1, tape2), (head1, head2)⟩

end TapeReduction
