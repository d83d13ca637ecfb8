import TapeReduction.Proofs.Marks

/-!
# What can be decoded

Two tapes laid on one, with any number of blanks behind them, are decoded to
these two tapes and their heads, and nothing else can be decoded.  A tape that
cannot be decoded is garbled in one of four ways: between its separators a region
has none left in it, so the test for a separator inside a region never fails.
-/

namespace TapeReduction

open Reduction (Stretch Laid exists_decode_iff_laid exists_separators_of_count)

/-! ## Stretches are regions -/

/-- A stretch without a dot is a list of plain cells. -/
theorem exists_plainCells_eq {cells : List Cell} (h : Stretch 0 cells) :
    ∃ symbols, cells = plainCells symbols := by
  induction cells with
  | nil => exact ⟨[], rfl⟩
  | cons c rest ih =>
    have hrest : Stretch (0 - if c.isDotted then 1 else 0) rest :=
      Stretch.erase (x := []) h
    rw [Nat.zero_sub] at hrest
    obtain ⟨symbols, rfl⟩ := ih hrest
    cases c with
    | plain s => exact ⟨s :: symbols, rfl⟩
    | dotted s => exact absurd h.countP_eq (by simp [Cell.isDotted])
    | separator => exact absurd (List.mem_cons_self ..) h.separator_notMem

/-- A stretch with one dot is the region of a tape, with the head where the dot is. -/
theorem exists_regionAt_eq {cells : List Cell} (h : Stretch 1 cells) :
    ∃ tape head, head < tape.length ∧ cells = regionAt tape head := by
  induction cells with
  | nil => exact absurd h.countP_eq (by simp)
  | cons c rest ih =>
    have hrest : Stretch (1 - if c.isDotted then 1 else 0) rest :=
      Stretch.erase (x := []) h
    cases c with
    | plain s =>
      obtain ⟨tape, head, hlt, rfl⟩ := ih hrest
      exact ⟨s :: tape, head + 1, Nat.succ_lt_succ hlt, rfl⟩
    | dotted s =>
      obtain ⟨symbols, rfl⟩ := exists_plainCells_eq hrest
      exact ⟨s :: symbols, 0, Nat.succ_pos _, rfl⟩
    | separator => exact absurd (List.mem_cons_self ..) h.separator_notMem

/-! ## Tapes that can be decoded -/

/-- Exactly the cells of two tapes with blanks behind them are decoded to these tapes. -/
theorem decode_eq_ok_iff {cells : List Cell} {p : TapePair} :
    decode cells = .ok p ↔ p.Seated ∧ ∃ k, cells = p.cells ++ List.replicate k .blank := by
  constructor
  · intro h
    obtain ⟨first, second, rest, hfirst, hsecond, hblank, rfl⟩ :=
      exists_decode_iff_laid.mp ⟨p, h⟩
    obtain ⟨tape1, head1, hlt1, rfl⟩ := exists_regionAt_eq hfirst
    obtain ⟨tape2, head2, hlt2, rfl⟩ := exists_regionAt_eq hsecond
    have hrest : rest = List.replicate rest.length .blank := List.eq_replicate_of_mem hblank
    have hcells : Cell.separator ::
        (regionAt tape1 head1 ++ .separator :: (regionAt tape2 head2 ++ .separator :: rest)) =
          TapePair.cells ⟨(tape1, tape2), (head1, head2)⟩ ++
            List.replicate rest.length .blank := by
      rw [← hrest]
      simp [TapePair.cells]
    have hseated : TapePair.Seated ⟨(tape1, tape2), (head1, head2)⟩ := ⟨hlt1, hlt2⟩
    -- The tapes read off the cells are the ones that decoding gives.
    rw [hcells, TapePair.decode_cells_append_blanks hseated] at h
    obtain rfl := Except.ok.inj h
    exact ⟨hseated, rest.length, hcells⟩
  · rintro ⟨hseated, k, rfl⟩
    exact TapePair.decode_cells_append_blanks hseated k

/-! ## Tapes that cannot be decoded -/

/-- A fault that decoding gives: the tape is garbled, and not by a separator inside a region. -/
def OutsideGarble (fault : Fault) : Prop :=
  ∃ garble, fault = .garbled garble ∧ ∀ number, garble ≠ .separatorInside number

/-- Cells without a separator make a region, or have another number of heads than one. -/
theorem outsideGarble_of_decodeRegion {number : Nat} {region : List Cell} {fault : Fault}
    (hsep : Cell.separator ∉ region) (h : decodeRegion number region = .error fault) :
    OutsideGarble fault := by
  by_cases hdots : region.countP Cell.isDotted = 1
  · rw [decodeRegion_of_separator_notMem number hsep hdots] at h
    cases h
  · rw [decodeRegion, if_neg hdots] at h
    obtain rfl := Except.error.inj h
    exact ⟨_, rfl, by simp⟩

/-- The regions of a tape are what is between its separators, so no separator is in them. -/
theorem outsideGarble_of_decode {cells : List Cell} {fault : Fault}
    (h : decode cells = .error fault) : OutsideGarble fault := by
  by_cases hhead : cells.head? = some .separator
  · by_cases hcount : cells.count .separator = 3
    · obtain ⟨first, second, rest, hfirst, hsecond, -, rfl⟩ :=
        exists_separators_of_count hhead hcount
      rw [decode, if_neg (fun hne => hne hhead), if_neg (fun hne => hne hcount)] at h
      simp only [List.tail_cons, splitRegion_append hfirst,
        splitRegion_append hsecond] at h
      split at h
      · obtain rfl := Except.error.inj h
        exact ⟨_, rfl, by simp⟩
      · cases h1 : decodeRegion 1 first with
        | error fault1 =>
          rw [h1] at h
          obtain rfl := Except.error.inj h
          exact outsideGarble_of_decodeRegion hfirst h1
        | ok result1 =>
          cases h2 : decodeRegion 2 second with
          | error fault2 =>
            rw [h1, h2] at h
            obtain rfl := Except.error.inj h
            exact outsideGarble_of_decodeRegion hsecond h2
          | ok result2 =>
            rw [h1, h2] at h
            cases h
    · rw [decode, if_neg (fun hne => hne hhead), if_pos hcount] at h
      obtain rfl := Except.error.inj h
      exact ⟨_, rfl, by simp⟩
  · rw [decode, if_pos hhead] at h
    obtain rfl := Except.error.inj h
    exact ⟨_, rfl, by simp⟩

/-! ## Decoding undoes laying out -/

theorem seated_orBlank (first second : List Symbol) :
    TapePair.Seated ⟨(orBlank first, orBlank second), (0, 0)⟩ := by
  have hpos : ∀ tape : List Symbol, 0 < (orBlank tape).length := by
    intro tape
    cases tape with
    | nil => exact Nat.one_pos
    | cons s rest => exact Nat.succ_pos _
  exact ⟨hpos first, hpos second⟩

/-- Cells are decoded to two tapes and their heads exactly if both heads are on their tapes
and the cells are these tapes laid out, each with the cell of its head dotted, and blanks
behind them.  All other cells are garbled, though never by a separator inside a region.  Two
tapes laid out with their heads on the first cells are decoded to these tapes, a blank
standing for an empty one. -/
theorem decode_accepts_exactly_laid_tapes :
    (∀ (cells : List Cell) (tape1 tape2 : List Symbol) (head1 head2 : Nat),
      decode cells = .ok ⟨(tape1, tape2), (head1, head2)⟩ ↔
        head1 < tape1.length ∧ head2 < tape2.length ∧
          ∃ k, cells = TapePair.cells ⟨(tape1, tape2), (head1, head2)⟩ ++
            List.replicate k .blank) ∧
    (∀ (cells : List Cell) (fault : Fault), decode cells = .error fault →
      ∃ garble, fault = .garbled garble ∧ ∀ number, garble ≠ .separatorInside number) ∧
    ∀ first second : List Symbol,
      decode (encode first second) = .ok ⟨(orBlank first, orBlank second), (0, 0)⟩ := by
  refine ⟨?_, ?_, ?_⟩
  · intro cells tape1 tape2 head1 head2
    rw [decode_eq_ok_iff, TapePair.Seated, and_assoc]
  · intro cells fault h
    exact outsideGarble_of_decode h
  · intro first second
    exact TapePair.decode_cells (seated_orBlank first second)

/-- Two tapes with blanks behind them are decoded, and three separators in a row are garbled
because there is no head between them. -/
theorem decode_accepts_exactly_laid_tapes_sample :
    decode [.separator, .plain .zero, .dotted .blank, .separator, .dotted .one, .separator,
      .blank, .blank] = .ok ⟨([.zero, .blank], [.one]), (1, 0)⟩ ∧
    decode [.separator, .separator, .separator] = .error (.garbled (.heads 1 0)) ∧
    ∃ garble, Fault.garbled (.heads 1 0) = .garbled garble ∧
      ∀ number, garble ≠ .separatorInside number := by
  have hnoHead : decode [.separator, .separator, .separator] =
      .error (.garbled (.heads 1 0)) := rfl
  refine ⟨?_, hnoHead, ?_⟩
  · exact (decode_accepts_exactly_laid_tapes.1 _ _ _ _ _).mpr ⟨by decide, by decide, 2, rfl⟩
  · exact decode_accepts_exactly_laid_tapes.2.1 _ _ hnoHead

end TapeReduction
