import TapeReduction.Proofs.Reduced

/-!
# Blocks on their own

All blocks of a reduced table are drafted into the same rows of states.  What stands
in the rows of one block nevertheless depends on the rules of its state alone, and
what stands before the first block on nothing at all: the number of a role falls into
the interval of its own block.  A block is left in one place for each of its rules,
at the end of the leaf of that rule.
-/

namespace TapeReduction.Reduction

/-- The state is one of those of the block of `q`. -/
def InBlock (q s : Nat) : Prop :=
  entry q ≤ s ∧ s < entry q + blockSize

theorem inBlock_index (states q : Nat) (r : BlockRole) :
    InBlock q ((Role.block q r).index states) := by
  have hoffset := r.offset_lt
  simp only [InBlock, Role.index]
  omega

/-- Blocks do not overlap. -/
theorem InBlock.unique {q q' s : Nat} (h : InBlock q s) (h' : InBlock q' s) : q = q' := by
  simp only [InBlock, entry_eq, blockSize_eq] at h h'
  omega

/-! ## Where an instruction starts -/

section Sources

variable {t : TwoTapeTable} {q : Nat} {i : Instruction}

theorem source_of_mem_block (hi : i ∈ block t q) : ∃ r, i.source = .block q r := by
  rcases List.mem_append.mp hi with hi | hi
  · obtain ⟨⟨r, hr, -⟩, -⟩ := endpoints_of_mem_seek q i hi
    exact ⟨r, hr⟩
  · obtain ⟨e, -, hi⟩ := List.mem_flatMap.mp hi
    rcases (endpoints_of_mem_leaf q e.1 _ e.2 i hi).1 with ⟨hr, -⟩ | ⟨r, hr⟩
    · exact ⟨_, hr⟩
    · exact ⟨_, hr⟩

theorem mem_setup_or_mem_block (hi : i ∈ program t) :
    i ∈ setup ∨ ∃ q < t.size, i ∈ block t q := by
  rcases List.mem_append.mp hi with hi | hi
  · exact .inl hi
  · obtain ⟨q, hq, hi⟩ := List.mem_flatMap.mp hi
    exact .inr ⟨q, List.mem_range.mp hq, hi⟩

/-- An instruction for a state of a block belongs to the block. -/
theorem mem_block_of_inBlock (hi : i ∈ program t) (h : InBlock q (i.source.index t.size)) :
    q < t.size ∧ i ∈ block t q := by
  rcases mem_setup_or_mem_block hi with hi | ⟨q', hq', hi⟩
  · obtain ⟨⟨r, hr⟩, -⟩ := endpoints_of_mem_setup i hi
    have hlt := Role.index_setup_lt t.size r
    rw [hr] at h
    simp only [InBlock, entry_eq, setupSize_eq] at h hlt
    omega
  · obtain ⟨r, hr⟩ := source_of_mem_block hi
    rw [hr] at h
    obtain rfl : q' = q := (inBlock_index t.size q' r).unique h
    exact ⟨hq', hi⟩

/-- An instruction for a state before the first block lays out the tape. -/
theorem mem_setup_of_lt (hi : i ∈ program t) (h : i.source.index t.size < setupSize) :
    i ∈ setup := by
  rcases mem_setup_or_mem_block hi with hi | ⟨q, hq, hi⟩
  · exact hi
  · obtain ⟨r, hr⟩ := source_of_mem_block hi
    have hle := (Role.index_block_bounds hq r).1
    rw [hr] at h
    omega

end Sources

/-! ## What the rows of a block hold -/

namespace Reduced

variable {t : TwoTapeTable} {one : OneTapeTable} (h : Reduced t one)
include h

theorem rule?_eq_some_iff_of_inBlock {q s : Nat} (hs : InBlock q s) (k : Cell)
    (r : Rule Cell Move) :
    one.rule? s k = some r ↔ q < t.size ∧
      ∃ i ∈ block t q, i.source.index t.size = s ∧ i.read = k ∧ i.rule t.size = r := by
  rw [h.rule?_eq_some_iff]
  constructor
  · rintro ⟨i, hi, rfl, hrest⟩
    obtain ⟨hq, hi⟩ := mem_block_of_inBlock hi hs
    exact ⟨hq, i, hi, rfl, hrest⟩
  · rintro ⟨hq, i, hi, hrest⟩
    exact ⟨i, block_subset_program hq hi, hrest⟩

theorem rule?_eq_some_iff_of_lt {s : Nat} (hs : s < setupSize) (k : Cell)
    (r : Rule Cell Move) :
    one.rule? s k = some r ↔
      ∃ i ∈ setup, i.source.index t.size = s ∧ i.read = k ∧ i.rule t.size = r := by
  rw [h.rule?_eq_some_iff]
  constructor
  · rintro ⟨i, hi, rfl, hrest⟩
    exact ⟨i, mem_setup_of_lt hi hs, rfl, hrest⟩
  · rintro ⟨i, hi, hrest⟩
    exact ⟨i, setup_subset_program hi, hrest⟩

end Reduced

/-- Where a leaf ends depends on the number of states only. -/
theorem destination_congr {t u : TwoTapeTable} (hsize : t.size = u.size) :
    destination t = destination u := by
  have haccepting : t.accepting = u.accepting := congrArg (· - 1) hsize
  funext target
  simp only [destination, haccepting]

theorem block_congr {t u : TwoTapeTable} {q : Nat} (hsize : t.size = u.size)
    (hrules : t.rules q = u.rules q) : block t q = block u q := by
  simp only [block, hrules, destination_congr hsize]

theorem rules_congr {one other : OneTapeTable} {s : Nat}
    (h : ∀ k r, one.rule? s k = some r ↔ other.rule? s k = some r) :
    one.rules s = other.rules s := by
  have hrule : one.rule? s = other.rule? s := funext fun k => Option.ext (h k)
  simp only [Draft.rules, hrule]

section Twins

variable {t u : TwoTapeTable} {one other : OneTapeTable}

/-- Two tables with the same number of states have the same rows before the first block. -/
theorem Reduced.rules_eq_of_lt (h : Reduced t one) (h' : Reduced u other)
    (hsize : t.size = u.size) {s : Nat} (hs : s < setupSize) : one.rules s = other.rules s := by
  apply rules_congr
  intro k r
  rw [h.rule?_eq_some_iff_of_lt hs, h'.rule?_eq_some_iff_of_lt hs, hsize]

/-- Two tables with the same number of states and the same rules of a state have the same
rows in its block. -/
theorem Reduced.rules_eq_of_inBlock (h : Reduced t one) (h' : Reduced u other)
    (hsize : t.size = u.size) {q s : Nat} (hrules : t.rules q = u.rules q)
    (hs : InBlock q s) : one.rules s = other.rules s := by
  apply rules_congr
  intro k r
  rw [h.rule?_eq_some_iff_of_inBlock hs, h'.rule?_eq_some_iff_of_inBlock hs,
    block_congr hsize hrules, hsize]

end Twins

/-! ## Where a block is left -/

/-- A leaf is left with one instruction: on the leading separator, at its very end. -/
theorem target_of_mem_leaf (q : Nat) (read : Symbol × Symbol)
    (rule : Rule (Symbol × Symbol) (Move × Move)) (next : Role) :
    ∀ i ∈ leaf q read rule next, (∃ r, i.target = leafRole q read r) ∨
      i = pass (leafRole q read (.rewind .first)) .separator next .left := by
  intro i hi
  simp only [leaf, List.mem_append, List.mem_singleton] at hi
  rcases hi with (((rfl | hi) | hi) | hi) | hi
  · exact .inl ⟨_, rfl⟩
  · exact .inl (endpoints_of_mem_moveSecond q read _ _ i hi).2
  · exact .inl (endpoints_of_mem_seekBack q read _ _ _ i hi).2
  · exact .inl (endpoints_of_mem_moveFirst q read _ _ i hi).2
  · simp only [rewind, List.mem_append, List.mem_flatMap, List.mem_cons, List.not_mem_nil,
      or_false] at hi
    rcases hi with ⟨_, -, rfl | rfl⟩ | rfl | rfl
    · exact .inl ⟨_, rfl⟩
    · exact .inl ⟨_, rfl⟩
    · exact .inl ⟨_, rfl⟩
    · exact .inr rfl

/-- The end of the leaf of a rule of `q`: its state, the leading separator, and the state it
leads to, which is the entry of the block of the target, or the accepting state. -/
def LeavesBlock (t : TwoTapeTable) (q s : Nat) (cell : Cell) (target : Nat) : Prop :=
  ∃ read rule, t.rule? q read = some rule ∧
    s = (Role.block q (.leaf read (.rewind .first))).index t.size ∧ cell = .separator ∧
    target = if rule.target = t.accepting then accepting t.size else entry rule.target

theorem index_destination (t : TwoTapeTable) (target : Nat) :
    (destination t target).index t.size =
      if target = t.accepting then accepting t.size else entry target := by
  unfold destination
  split
  · rfl
  · rfl

theorem target_of_mem_block {t : TwoTapeTable} {q : Nat} {i : Instruction}
    (hi : i ∈ block t q) :
    InBlock q (i.target.index t.size) ∨
      LeavesBlock t q (i.source.index t.size) i.read (i.target.index t.size) := by
  rcases List.mem_append.mp hi with hi | hi
  · obtain ⟨-, r, hr⟩ := endpoints_of_mem_seek q i hi
    rw [hr]
    exact .inl (inBlock_index t.size q r)
  · obtain ⟨⟨read, rule⟩, hentry, hi⟩ := List.mem_flatMap.mp hi
    rcases target_of_mem_leaf q read rule _ i hi with ⟨r, hr⟩ | rfl
    · rw [hr]
      exact .inl (inBlock_index t.size q _)
    · exact .inr ⟨read, rule, Draft.mem_rules_iff.mp hentry, rfl, rfl, index_destination t _⟩

namespace Reduced

variable {t : TwoTapeTable} {one : OneTapeTable} (h : Reduced t one)
include h

theorem target_of_inBlock {q s : Nat} {cell : Cell} {rule : Rule Cell Move}
    (hs : InBlock q s) (hrule : one.rule? s cell = some rule) :
    InBlock q rule.target ∨ LeavesBlock t q s cell rule.target := by
  obtain ⟨-, i, hi, rfl, rfl, rfl⟩ := (h.rule?_eq_some_iff_of_inBlock hs cell rule).mp hrule
  exact target_of_mem_block hi

/-- Every place where a block can be left has its rule. -/
theorem exists_rule?_of_leavesBlock {q s target : Nat} {cell : Cell}
    (hleave : LeavesBlock t q s cell target) :
    ∃ rule, one.rule? s cell = some rule ∧ rule.target = target := by
  obtain ⟨read, rule, hrule, rfl, rfl, rfl⟩ := hleave
  have hlast : pass (leafRole q read (.rewind .first)) .separator
      (destination t rule.target) .left ∈ program t := by
    refine leaf_subset_program hrule (List.mem_append_right _ ?_)
    simp [rewind, leafRole]
  exact ⟨_, h.rule?_eq_some hlast, index_destination t rule.target⟩

end Reduced

/-- Reduced from two-tape tables with the same number of states, two tables agree before the
first block, and in the block of every state whose rules the two-tape tables share.  In every
reduced table a rule of a block leads to a state of the block, but for those at the ends of
the leaves, on the leading separator.  Of these there is one for each rule of the state, and
it leads to the entry of the target of the rule, or to the accepting state if that target
accepts. -/
theorem blocks_are_isolated :
    (∀ t u : TwoTapeTable, t.size = u.size →
      ∃ one other, reduce t = .ok one ∧ reduce u = .ok other ∧
        (∀ s < setupSize, one.rules s = other.rules s) ∧
        ∀ q, t.rules q = u.rules q → ∀ s, InBlock q s → one.rules s = other.rules s) ∧
    ∀ t : TwoTapeTable, ∃ one, reduce t = .ok one ∧ ∀ q,
      (∀ s cell rule, InBlock q s → one.rule? s cell = some rule →
        InBlock q rule.target ∨ LeavesBlock t q s cell rule.target) ∧
      ∀ s cell target, LeavesBlock t q s cell target →
        ∃ rule, one.rule? s cell = some rule ∧ rule.target = target := by
  constructor
  · intro t u hsize
    obtain ⟨one, hone, h⟩ := exists_reduce_eq_ok t
    obtain ⟨other, hother, h'⟩ := exists_reduce_eq_ok u
    refine ⟨one, other, hone, hother, ?_, ?_⟩
    · intro s hs
      exact h.rules_eq_of_lt h' hsize hs
    · intro q hrules s hs
      exact h.rules_eq_of_inBlock h' hsize hrules hs
  · intro t
    obtain ⟨one, hone, h⟩ := exists_reduce_eq_ok t
    refine ⟨one, hone, ?_⟩
    intro q
    refine ⟨?_, ?_⟩
    · intro s cell rule hs hrule
      exact h.target_of_inBlock hs hrule
    · intro s cell target hleave
      exact h.exists_rule?_of_leavesBlock hleave

/-- Goes from its first state to its second on a one, and accepts on a key. -/
def onThen (key : Symbol × Symbol) : TwoTapeTable where
  rows := #[fun k => if k = (.one, .blank) then
      some ⟨1, (.one, .one), (.right, .left)⟩ else none,
    fun k => if k = key then some ⟨2, (.zero, .zero), (.left, .right)⟩ else none,
    fun _ => none]
  size_pos := Nat.succ_pos 2
  closed := by
    intro state k rule hrule
    match state with
    | 0 =>
      obtain ⟨-, hrule⟩ := Option.ite_none_right_eq_some.mp hrule
      rw [← Option.some.inj hrule]
      exact (by decide : 1 < 3)
    | 1 =>
      obtain ⟨-, hrule⟩ := Option.ite_none_right_eq_some.mp hrule
      rw [← Option.some.inj hrule]
      exact (by decide : 2 < 3)
    | 2 => cases hrule
    | state + 3 => cases hrule
  accepting_rule? _ := rfl

/-- The two tables differ in their second state, but share the block of the first one, which
is left for the entry of the second. -/
theorem blocks_are_isolated_onThen :
    ∃ one other, reduce (onThen (.zero, .one)) = .ok one ∧
      reduce (onThen (.blank, .blank)) = .ok other ∧
      onThen (.zero, .one) ≠ onThen (.blank, .blank) ∧
      one.rules 10 = other.rules 10 ∧ one.rules (entry 0 + 7) = other.rules (entry 0 + 7) ∧
      ∃ rule, one.rule? ((Role.block 0 (.leaf (.one, .blank) (.rewind .first))).index 3)
        .separator = some rule ∧ rule.target = entry 1 := by
  obtain ⟨one, other, hone, hother, hsetup, hblock⟩ :=
    blocks_are_isolated.1 (onThen (.zero, .one)) (onThen (.blank, .blank)) rfl
  obtain ⟨one', hone', hleaves⟩ := blocks_are_isolated.2 (onThen (.zero, .one))
  obtain rfl : one = one' := Except.ok.inj (hone.symm.trans hone')
  refine ⟨one, other, hone, hother, by decide, hsetup 10 (by decide),
    hblock 0 rfl _ ⟨by decide, by decide⟩, ?_⟩
  exact (hleaves 0).2 _ _ _ ⟨(.one, .blank), _, rfl, rfl, rfl, rfl⟩

end TapeReduction.Reduction
