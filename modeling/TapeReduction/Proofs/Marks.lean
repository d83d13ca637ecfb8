import TapeReduction.Proofs.Numbering
import TapeReduction.Proofs.Region

/-!
# Separators and dots

A tape that shows two tapes has a separator in front of, between and behind two
stretches of cells, with one dot in each.  Exactly the tapes of this form, with
any blanks behind them, can be decoded.

While a head is moved or a region grows, a separator or a dot is in hand and not
on the tape.  The role of the machine says which, and the role is known from the
state and the moves of the rule that is carried out.
-/

namespace TapeReduction.Reduction

open Cell (separator dotted plain)

/-! ## Stretches of a tape -/

/-- Cells without a separator, and with a number of dots among them. -/
structure Stretch (dots : Nat) (cells : List Cell) : Prop where
  separator_notMem : separator ∉ cells
  countP_eq : cells.countP Cell.isDotted = dots

namespace Stretch

theorem append {m n : Nat} {a b : List Cell} (ha : Stretch m a) (hb : Stretch n b) :
    Stretch (m + n) (a ++ b) := by
  constructor
  · rw [List.mem_append, not_or]
    exact ⟨ha.separator_notMem, hb.separator_notMem⟩
  · rw [List.countP_append, ha.countP_eq, hb.countP_eq]

theorem plainCells (symbols : List Symbol) : Stretch 0 (plainCells symbols) := by
  constructor
  · simp [TapeReduction.plainCells]
  · exact countP_isDotted_plainCells symbols

theorem dotted (s : Symbol) : Stretch 1 [.dotted s] := by
  constructor
  · simp
  · rfl

theorem blank {cells : List Cell} (h : ∀ c ∈ cells, c = .blank) : Stretch 0 cells := by
  constructor
  · intro hmem
    exact nomatch h _ hmem
  · apply List.countP_eq_zero.mpr
    intro c hc
    rw [h c hc]
    exact Bool.false_ne_true

theorem split (before : List Symbol) (s : Symbol) (after : List Symbol) :
    Stretch 1 (TapeReduction.plainCells before ++ .dotted s :: TapeReduction.plainCells after) := by
  have h := (plainCells before).append ((dotted s).append (plainCells after))
  exact h

theorem regionAt {tape : List Symbol} {head : Nat} (h : head < tape.length) :
    Stretch 1 (regionAt tape head) := by
  obtain ⟨before, s, after, rfl, rfl⟩ := exists_split h
  rw [regionAt_split]
  exact split before s after

theorem count_separator {n : Nat} {cells : List Cell} (h : Stretch n cells) :
    cells.count separator = 0 :=
  List.count_eq_zero_of_not_mem h.separator_notMem

/-- Taking a cell out takes its dot out. -/
theorem erase {n : Nat} {x y : List Cell} {c : Cell} (h : Stretch n (x ++ c :: y)) :
    Stretch (n - if c.isDotted then 1 else 0) (x ++ y) := by
  obtain ⟨hsep, hdots⟩ := h
  constructor
  · intro hmem
    apply hsep
    rcases List.mem_append.mp hmem with hx | hy
    · exact List.mem_append_left _ hx
    · exact List.mem_append_right _ (List.mem_cons_of_mem _ hy)
  · rw [List.countP_append, List.countP_cons] at hdots
    rw [List.countP_append]
    omega

end Stretch

/-! ## Tapes that can be decoded -/

/-- Two stretches with a dot each, between separators, and blanks behind them. -/
def Laid (cells : List Cell) : Prop :=
  ∃ first second rest, Stretch 1 first ∧ Stretch 1 second ∧ (∀ c ∈ rest, c = .blank) ∧
    cells = separator :: (first ++ separator :: (second ++ separator :: rest))

theorem exists_region_of_count_pos {cells : List Cell} (h : 0 < cells.count separator) :
    ∃ region rest, separator ∉ region ∧ cells = region ++ separator :: rest ∧
      cells.count separator = rest.count separator + 1 := by
  obtain ⟨region, rest, rfl, hregion⟩ := List.eq_append_cons_of_mem (List.count_pos_iff.mp h)
  refine ⟨region, rest, hregion, rfl, ?_⟩
  rw [List.count_append, List.count_eq_zero_of_not_mem hregion, List.count_cons_self,
    Nat.zero_add]

/-- With its three separators in place, a tape can be decoded if each region has one dot and
only blanks are behind the last separator. -/
theorem exists_decode_separators_iff {first second rest : List Cell}
    (hfirst : separator ∉ first) (hsecond : separator ∉ second) (hrest : separator ∉ rest) :
    (∃ p, decode (separator :: (first ++ separator :: (second ++ separator :: rest))) = .ok p) ↔
      first.countP Cell.isDotted = 1 ∧ second.countP Cell.isDotted = 1 ∧
        ∀ c ∈ rest, c = .blank := by
  have hcount : (separator :: (first ++ separator :: (second ++ separator :: rest))).count
      separator = 3 := by
    simp [List.count_eq_zero_of_not_mem, hfirst, hsecond, hrest]
  unfold decode
  rw [if_neg (by simp), if_neg (by simp [hcount]), List.tail_cons]
  simp only [splitRegion_append hfirst, splitRegion_append hsecond]
  by_cases hblank : ∀ c ∈ rest, c = .blank
  · have hany : rest.any (· ≠ .blank) = false := by simpa using hblank
    rw [hany, if_neg Bool.false_ne_true]
    by_cases h1 : first.countP Cell.isDotted = 1
    · rw [decodeRegion_of_separator_notMem 1 hfirst h1]
      by_cases h2 : second.countP Cell.isDotted = 1
      · rw [decodeRegion_of_separator_notMem 2 hsecond h2]
        simpa [h1, h2, bind, Except.bind, pure, Except.pure] using hblank
      · simp [decodeRegion, h2, bind, Except.bind]
    · simp [decodeRegion, h1, bind, Except.bind]
  · have hany : rest.any (· ≠ .blank) = true := by simpa using hblank
    rw [hany, if_pos rfl]
    simp [hblank]

/-- A tape that begins with a separator and has two more is two regions and what is behind
them. -/
theorem exists_separators_of_count {cells : List Cell} (hhead : cells.head? = some separator)
    (hcount : cells.count separator = 3) :
    ∃ first second rest, separator ∉ first ∧ separator ∉ second ∧ separator ∉ rest ∧
      cells = separator :: (first ++ separator :: (second ++ separator :: rest)) := by
  obtain ⟨tail, rfl⟩ := List.head?_eq_some_iff.mp hhead
  rw [List.count_cons_self] at hcount
  have htwo : 0 < tail.count separator := by omega
  obtain ⟨first, tail, hfirst, rfl, hcount'⟩ := exists_region_of_count_pos htwo
  have hone : 0 < tail.count separator := by omega
  obtain ⟨second, rest, hsecond, rfl, hcount''⟩ := exists_region_of_count_pos hone
  have hrest : separator ∉ rest := List.count_eq_zero.mp (by omega)
  exact ⟨first, second, rest, hfirst, hsecond, hrest, rfl⟩

/-- A tape that can be decoded begins with a separator and has two more. -/
theorem exists_separators_of_decode {cells : List Cell} {p : TapePair}
    (h : decode cells = .ok p) :
    ∃ first second rest, separator ∉ first ∧ separator ∉ second ∧ separator ∉ rest ∧
      cells = separator :: (first ++ separator :: (second ++ separator :: rest)) := by
  by_cases hhead : cells.head? = some separator
  · by_cases hcount : cells.count separator = 3
    · exact exists_separators_of_count hhead hcount
    · rw [decode, if_neg (fun hne => hne hhead), if_pos hcount] at h
      cases h
  · rw [decode, if_pos hhead] at h
    cases h

theorem exists_decode_iff_laid {cells : List Cell} :
    (∃ p, decode cells = .ok p) ↔ Laid cells := by
  constructor
  · intro h
    obtain ⟨p, hp⟩ := h
    obtain ⟨first, second, rest, hfirst, hsecond, hrest, rfl⟩ := exists_separators_of_decode hp
    obtain ⟨h1, h2, hblank⟩ := (exists_decode_separators_iff hfirst hsecond hrest).mp ⟨p, hp⟩
    exact ⟨first, second, rest, ⟨hfirst, h1⟩, ⟨hsecond, h2⟩, hblank, rfl⟩
  · rintro ⟨first, second, rest, hfirst, hsecond, hblank, rfl⟩
    apply (exists_decode_separators_iff hfirst.separator_notMem hsecond.separator_notMem
      (Stretch.blank hblank).separator_notMem).mpr
    exact ⟨hfirst.countP_eq, hsecond.countP_eq, hblank⟩

/-! ## What a role has in hand -/

/-- A separator has been overwritten and not been put down again. -/
def Role.lacksSeparator : Role → Bool
  | .block _ (.leaf _ .extendSecond) => true
  | .block _ (.leaf _ .carrySeparator) => true
  | .block _ (.leaf _ .carryLast) => true
  | _ => false

/-- A dot has been taken off and not been put down again. -/
def Role.lacksDot : Role → Bool
  | .block _ (.leaf _ .probeSecond) => true
  | .block _ (.leaf _ .restoreSecond) => true
  | .block _ (.leaf _ .probeFirst) => true
  | .block _ (.leaf _ .restoreFirst) => true
  | .block _ (.leaf _ (.carryCell (.dotted _))) => true
  | _ => false

/-- The tape begins with a separator, it has the separators and dots that a role leaves on
it, and it can be decoded if nothing is in hand. -/
structure Marked (x : Role) (cells : List Cell) : Prop where
  head?_eq : cells.head? = some separator
  count_separator : cells.count separator = if x.lacksSeparator then 2 else 3
  countP_isDotted : cells.countP Cell.isDotted = if x.lacksDot then 1 else 2
  exists_decode_iff :
    (∃ p, decode cells = .ok p) ↔ x.lacksSeparator = false ∧ x.lacksDot = false

section Marked

variable {x : Role} {first second rest : List Cell} {i j : Nat}

theorem counts_of_stretches
    (hfirst : Stretch i first) (hsecond : Stretch j second) (hrest : Stretch 0 rest) :
    (separator :: (first ++ separator :: (second ++ separator :: rest))).count separator = 3 ∧
      (separator :: (first ++ separator :: (second ++ separator :: rest))).countP
        Cell.isDotted = i + j := by
  constructor
  · simp [hfirst.count_separator, hsecond.count_separator, hrest.count_separator]
  · simp [Cell.isDotted, hfirst.countP_eq, hsecond.countP_eq, hrest.countP_eq]

theorem Laid.counts {cells : List Cell} (h : Laid cells) :
    cells.count separator = 3 ∧ cells.countP Cell.isDotted = 2 := by
  obtain ⟨first, second, rest, hfirst, hsecond, hblank, rfl⟩ := h
  exact counts_of_stretches hfirst hsecond (Stretch.blank hblank)

theorem Laid.marked {cells : List Cell} (h : Laid cells) (hsep : x.lacksSeparator = false)
    (hdot : x.lacksDot = false) : Marked x cells := by
  obtain ⟨hcount, hdots⟩ := h.counts
  refine ⟨?_, ?_, ?_, ?_⟩
  · obtain ⟨first, second, rest, -, -, -, rfl⟩ := h
    rfl
  · simpa [hsep] using hcount
  · simpa [hdot] using hdots
  · simpa [hsep, hdot, exists_decode_iff_laid] using h

theorem marked_of_lacksDot (hdot : x.lacksDot = true) (hsep : x.lacksSeparator = false)
    (hfirst : Stretch i first) (hsecond : Stretch j second) (hone : i + j = 1)
    (hblank : ∀ c ∈ rest, c = .blank) :
    Marked x (separator :: (first ++ separator :: (second ++ separator :: rest))) := by
  obtain ⟨hcount, hdots⟩ := counts_of_stretches hfirst hsecond (Stretch.blank hblank)
  refine ⟨rfl, ?_, ?_, ?_⟩
  · simpa [hsep] using hcount
  · simpa [hdot, hone] using hdots
  · rw [exists_decode_iff_laid]
    constructor
    · intro hlaid
      have htwo := hlaid.counts.2
      omega
    · intro hnone
      rw [hdot] at hnone
      cases hnone.2

theorem marked_of_lacksSeparator (hsep : x.lacksSeparator = true) (hdot : x.lacksDot = false)
    (hfirst : Stretch i first) (hsecond : Stretch j second) (htwo : i + j = 2) :
    Marked x (separator :: (first ++ separator :: second)) := by
  have hcount : (separator :: (first ++ separator :: second)).count separator = 2 := by
    simp [hfirst.count_separator, hsecond.count_separator]
  refine ⟨rfl, ?_, ?_, ?_⟩
  · simpa [hsep] using hcount
  · simp [Cell.isDotted, hfirst.countP_eq, hsecond.countP_eq, htwo, hdot]
  · rw [exists_decode_iff_laid]
    constructor
    · intro hlaid
      have hthree := hlaid.counts.1
      omega
    · intro hnone
      rw [hsep] at hnone
      cases hnone.1

end Marked

/-! ## The role of a state -/

/-- A leaf with these moves has the role.  Restoring a head is for one that moves left, and
growing a tape for one that moves right. -/
def LeafRole.Fits (move : Move × Move) : LeafRole → Prop
  | .restoreSecond => move.2 = .left
  | .extendSecond => move.2 = .right
  | .restoreFirst => move.1 = .left
  | .carrySeparator => move.1 = .right
  | .carryCell cell => cell ≠ separator
  | _ => True

/-- The machine reduced from a table has the role. -/
def Role.Fits (t : TwoTapeTable) : Role → Prop
  | .setup (.carry symbol _) => symbol ∈ Symbol.inputs
  | .block q (.leaf read role) => ∃ rule, t.rule? q read = some rule ∧ role.Fits rule.move
  | _ => True

/-- The state of the machine reduced from a table plays a role. -/
structure Plays (t : TwoTapeTable) (state : Nat) (x : Role) : Prop where
  within : x.Within t.size
  fits : x.Fits t
  index_eq : x.index t.size = state

/-- The role of a leaf with these moves that has a slot. -/
def LeafRole.ofSlot (move : Move × Move) : LeafRole → LeafRole
  | .extendSecond => if move.2 = .left then .restoreSecond else .extendSecond
  | .carrySeparator => if move.1 = .left then .restoreFirst else .carrySeparator
  | r => r

theorem LeafRole.ofSlot_slot {move : Move × Move} {r : LeafRole} (h : r.Fits move) :
    ofSlot move r.slot = r := by
  cases r with
  | restoreSecond => exact if_pos h
  | extendSecond => simp [slot, ofSlot, show move.2 = .right from h]
  | restoreFirst => exact if_pos h
  | carrySeparator => simp [slot, ofSlot, show move.1 = .right from h]
  | carryCell cell =>
    cases cell with
    | separator => exact absurd rfl h
    | _ => rfl
  | _ => rfl

/-- The role with a slot that the machine reduced from a table has. -/
def Role.ofSlot (t : TwoTapeTable) : Role → Role
  | .block q (.leaf read role) =>
    match t.rule? q read with
    | some rule => .block q (.leaf read (role.ofSlot rule.move))
    | none => .block q (.leaf read role)
  | x => x

theorem Role.ofSlot_slot {t : TwoTapeTable} {x : Role} (h : x.Fits t) :
    ofSlot t x.slot = x := by
  cases x with
  | setup role =>
    cases role with
    | carry symbol first =>
      cases symbol with
      | blank => simp [Fits, Symbol.inputs] at h
      | _ => rfl
    | _ => rfl
  | block q role =>
    cases role with
    | leaf read role =>
      obtain ⟨rule, hrule, hfits⟩ := h
      simp only [slot, BlockRole.slot, ofSlot, hrule, LeafRole.ofSlot_slot hfits]
    | _ => rfl
  | accept => rfl

/-- The machine reduced from a table has the role, and the tape is marked for it. -/
structure Sound (t : TwoTapeTable) (x : Role) (cells : List Cell) : Prop where
  within : x.Within t.size
  fits : x.Fits t
  marked : Marked x cells

/-- A state plays one role only. -/
theorem Plays.unique {t : TwoTapeTable} {state : Nat} {x y : Role}
    (hx : Plays t state x) (hy : Plays t state y) : x = y := by
  have hslot := Role.slot_eq_of_index_eq hx.within hy.within
    (hx.index_eq.trans hy.index_eq.symm)
  rw [← Role.ofSlot_slot hx.fits, hslot, Role.ofSlot_slot hy.fits]

end TapeReduction.Reduction
