import TapeReduction.Encoding
import TapeReduction.Machine

/-!
# Regions and the tapes they hold

A region shows a tape that is kept up to its head.  One step overwrites the cell
with the dot and moves the dot by one cell; moving right off the last cell adds
a blank cell to the region, and moving left off the first cell leaves the dot
where it is.  This is what a step does to the kept part of a tape.
-/

namespace TapeReduction

/-! ## A tape that is kept up to its head -/

/-- What becomes of a tape when the symbol at its head is overwritten and the head moves;
a head that leaves the kept part gets a blank to stand on. -/
def advance (write : Symbol) (m : Move) (tape : List Symbol) (head : Nat) : List Symbol × Nat :=
  match m with
  | .left => (tape.set head write, head - 1)
  | .right =>
    if head + 1 < tape.length then (tape.set head write, head + 1)
    else (tape.set head write ++ [.blank], head + 1)

section Splits

variable (w s : Symbol) (before after : List Symbol)

theorem regionAt_split :
    regionAt (before ++ s :: after) before.length =
      plainCells before ++ .dotted s :: plainCells after := by
  induction before with
  | nil => rfl
  | cons b before ih => exact congrArg (Cell.plain b :: ·) ih

theorem exists_split {tape : List Symbol} {head : Nat} (h : head < tape.length) :
    ∃ before s after, tape = before ++ s :: after ∧ head = before.length := by
  refine ⟨tape.take head, tape[head], tape.drop (head + 1), ?_, ?_⟩
  · simp
  · rw [List.length_take]
    omega

/-- The four ways a head moves: left off the first cell or inside its tape, right inside
the kept part or off it. -/
theorem advance_cases (m : Move) :
    (m = .left ∧ before = [] ∧
      advance w m (before ++ s :: after) before.length = (w :: after, 0)) ∨
    (∃ b x, m = .left ∧ before = b ++ [x] ∧
      advance w m (before ++ s :: after) before.length = (b ++ x :: w :: after, b.length)) ∨
    (∃ x a, m = .right ∧ after = x :: a ∧
      advance w m (before ++ s :: after) before.length =
        ((before ++ [w]) ++ x :: a, (before ++ [w]).length)) ∨
    (m = .right ∧ after = [] ∧
      advance w m (before ++ s :: after) before.length =
        ((before ++ [w]) ++ [.blank], (before ++ [w]).length)) := by
  cases m with
  | left =>
    rcases List.eq_nil_or_concat before with rfl | ⟨b, x, rfl⟩
    · exact .inl ⟨rfl, rfl, rfl⟩
    · exact .inr (.inl ⟨b, x, rfl, List.concat_eq_append, by simp [advance]⟩)
  | right =>
    cases after with
    | nil => exact .inr (.inr (.inr ⟨rfl, rfl, by simp [advance]⟩))
    | cons x a => exact .inr (.inr (.inl ⟨x, a, rfl, rfl, by simp [advance]⟩))

end Splits

/-- The head stays on the kept part. -/
theorem head_advance_lt {tape : List Symbol} {head : Nat} (h : head < tape.length)
    (w : Symbol) (m : Move) :
    (advance w m tape head).2 < (advance w m tape head).1.length := by
  cases m with
  | left =>
    simp only [advance, List.length_set]
    omega
  | right =>
    by_cases hlast : head + 1 < tape.length
    · simp [advance, hlast]
    · simp only [advance, if_neg hlast, List.length_append, List.length_set,
        List.length_singleton]
      omega

/-- A step makes a tape at most one cell longer, and never shorter. -/
theorem length_advance_bounds (tape : List Symbol) (head : Nat) (w : Symbol) (m : Move) :
    tape.length ≤ (advance w m tape head).1.length ∧
      (advance w m tape head).1.length ≤ tape.length + 1 := by
  cases m with
  | left => simp [advance]
  | right => by_cases hlast : head + 1 < tape.length <;> simp [advance, hlast]

/-- The first separator ends a region. -/
theorem splitRegion_append {region rest : List Cell} (h : Cell.separator ∉ region) :
    splitRegion (region ++ .separator :: rest) = (region, rest) := by
  induction region with
  | nil => simp [splitRegion]
  | cons c region ih =>
    have hne : c ≠ .separator := fun heq => h (heq ▸ List.mem_cons_self ..)
    have hrest := ih fun hmem => h (List.mem_cons_of_mem _ hmem)
    simpa [splitRegion, hne] using hrest

/-! ## A pair of tapes -/

namespace TapePair

/-- Both heads are on the kept parts. -/
def Seated (p : TapePair) : Prop :=
  p.heads.1 < p.tapes.1.length ∧ p.heads.2 < p.tapes.2.length

/-- What the heads read. -/
def scan (p : TapePair) : Symbol × Symbol :=
  (p.tapes.1.getD p.heads.1 .blank, p.tapes.2.getD p.heads.2 .blank)

/-- The pair after a step. -/
def advance (p : TapePair) (write : Symbol × Symbol) (move : Move × Move) : TapePair :=
  let first := TapeReduction.advance write.1 move.1 p.tapes.1 p.heads.1
  let second := TapeReduction.advance write.2 move.2 p.tapes.2 p.heads.2
  ⟨(first.1, second.1), (first.2, second.2)⟩

theorem Seated.advance {p : TapePair} (h : p.Seated) (write : Symbol × Symbol)
    (move : Move × Move) : (p.advance write move).Seated :=
  ⟨head_advance_lt h.1 write.1 move.1, head_advance_lt h.2 write.2 move.2⟩

theorem length_cells (p : TapePair) :
    p.cells.length = p.tapes.1.length + p.tapes.2.length + 3 := by
  simp only [cells, List.length_append, List.length_cons, length_regionAt, List.length_nil]
  omega

/-- The laid-out tape grows by at most two cells in a step. -/
theorem length_cells_advance_bounds (p : TapePair) (write : Symbol × Symbol)
    (move : Move × Move) :
    p.cells.length ≤ (p.advance write move).cells.length ∧
      (p.advance write move).cells.length ≤ p.cells.length + 2 := by
  have h1 := length_advance_bounds p.tapes.1 p.heads.1 write.1 move.1
  have h2 := length_advance_bounds p.tapes.2 p.heads.2 write.2 move.2
  rw [length_cells, length_cells]
  simp only [advance]
  omega

/-- Laying two tapes out can be undone, whatever blanks are behind them. -/
theorem decode_cells_append_blanks {p : TapePair} (h : p.Seated) (k : Nat) :
    decode (p.cells ++ List.replicate k .blank) = .ok p := by
  obtain ⟨⟨tape1, tape2⟩, head1, head2⟩ := p
  have hsep1 := separator_notMem_regionAt tape1 head1
  have hsep2 := separator_notMem_regionAt tape2 head2
  have hcount : (cells ⟨(tape1, tape2), (head1, head2)⟩ ++
      List.replicate k Cell.blank).count Cell.separator = 3 := by
    simp [cells, List.count_eq_zero_of_not_mem, hsep1, hsep2]
  unfold decode
  rw [if_neg (by simp [cells]), if_neg (by simp [hcount])]
  simp only [cells, List.cons_append, List.tail_cons, List.append_assoc]
  rw [splitRegion_append hsep1]
  simp only
  rw [splitRegion_append hsep2]
  simp only [List.nil_append]
  rw [if_neg (by simp), decodeRegion_regionAt 1 h.1, decodeRegion_regionAt 2 h.2]
  rfl

theorem decode_cells {p : TapePair} (h : p.Seated) : decode p.cells = .ok p := by
  simpa using decode_cells_append_blanks h 0

end TapePair

/-! ## The kept parts of two tapes -/

/-- The tapes of a two-tape machine, kept up to their heads. -/
def keptPair (tapes : TwoTapes) : TapePair :=
  ⟨(tapes.1.settle.cells.toList, tapes.2.settle.cells.toList), (tapes.1.head, tapes.2.head)⟩

theorem head_lt_length_settle (tape : Tape Symbol.blank) :
    tape.head < tape.settle.cells.toList.length := by
  rw [Array.length_toList, Tape.size_cells_settle]
  omega

theorem keptPair_seated (tapes : TwoTapes) : (keptPair tapes).Seated :=
  ⟨head_lt_length_settle tapes.1, head_lt_length_settle tapes.2⟩

theorem scan_keptPair (tapes : TwoTapes) :
    (keptPair tapes).scan = Tapes.scan (Tapes.settle tapes) := by
  simp [keptPair, TapePair.scan, Tapes.scan, Tapes.settle, Tape.scan,
    Array.getD_eq_getD_getElem?]

theorem settle_settle (tape : Tape Symbol.blank) : tape.settle.settle = tape.settle := by
  apply if_pos
  rw [Tape.head_settle, Tape.size_cells_settle]
  omega

theorem keptPair_settle (tapes : TwoTapes) : keptPair (Tapes.settle tapes) = keptPair tapes := by
  simp [keptPair, Tapes.settle, settle_settle]

/-- Writing and moving do to the kept part of a tape what `advance` says. -/
theorem settle_shift_write (tape : Tape Symbol.blank) (w : Symbol) (m : Move) :
    let next := (tape.settle.write w).shift m
    (next.settle.cells.toList, next.head) =
      advance w m tape.settle.cells.toList tape.head := by
  have hlt : tape.head < tape.settle.cells.size := by
    rw [Tape.size_cells_settle]
    omega
  -- The cell under the head is kept, so writing changes only it.
  have hwrite : tape.settle.write w =
      ⟨tape.settle.cells.setIfInBounds tape.head w, tape.head⟩ := by
    rw [Tape.write, settle_settle, Tape.head_settle]
  simp only [hwrite]
  clear hwrite
  generalize tape.settle.cells = cells at hlt
  cases m with
  | left =>
    have hlt' : tape.head - 1 < cells.size := by omega
    simp [Tape.shift, Tape.settle, advance, hlt']
  | right =>
    by_cases hlast : tape.head + 1 < cells.size
    · simp [Tape.shift, Tape.settle, advance, hlast]
    · have hone : tape.head + 1 + 1 - cells.size = 1 := by omega
      simp [Tape.shift, Tape.settle, advance, hlast, hone]

/-- One step of a two-tape machine, on the kept parts. -/
theorem keptPair_act (tapes : TwoTapes) (write : Symbol × Symbol) (move : Move × Move) :
    keptPair (Tapes.act write move (Tapes.settle tapes)) =
      (keptPair tapes).advance write move := by
  have h1 := settle_shift_write tapes.1 write.1 move.1
  have h2 := settle_shift_write tapes.2 write.2 move.2
  simp only [Prod.ext_iff] at h1 h2
  simp only [keptPair, TapePair.advance, Tapes.act, Tapes.settle]
  rw [h1.1, h1.2, h2.1, h2.2]

end TapeReduction
