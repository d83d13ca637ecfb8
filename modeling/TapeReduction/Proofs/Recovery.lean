import TapeReduction.Proofs.Block
import TapeReduction.Proofs.Isolation

/-!
# Reading a two-tape table back from its reduced table

A reduced table tells which two-tape table it was reduced from.  Its size tells the
number of states, and the parts of a rule stand in three places of the leaf of the
rule: what the second head writes and how it moves where the leaf is entered, the same
for the first head where that head is taken off its cell, and the target where the leaf
is left.  A state without a rule has no such leaf.

So the parts of a rule are neither mixed up nor lost, and no two two-tape tables have
the same reduced table.
-/

namespace TapeReduction.Reduction

/-! ## What the parts of a reduced table stand for -/

/-- The number of states of a table, told by the table reduced from it. -/
def sourceSize (one : OneTapeTable) : Nat :=
  (one.size - 1 - setupSize) / blockSize

/-- The state a leaf leads to, told by the state of the reduced table at its end: the state
whose block is entered, or the last one if the reduced table accepts. -/
def sourceTarget (one : OneTapeTable) (s : Nat) : Nat :=
  if s = one.accepting then sourceSize one - 1 else (s - setupSize) / blockSize

/-- The rule of a table for what the heads read in a state, put together from the places of
its leaf in the reduced table. -/
def sourceRule? (one : OneTapeTable) (q : Nat) (read : Symbol × Symbol) :
    Option (Rule (Symbol × Symbol) (Move × Move)) := do
  let state (r : BlockRole) := (Role.block q r).index (sourceSize one)
  let enter ← one.rule? (state (.seekSecond read.1)) (.dotted read.2)
  let lift ← one.rule? (state (.leaf read .returnFirst)) (.dotted read.1)
  let leave ← one.rule? (state (.leaf read (.rewind .first))) .separator
  return ⟨sourceTarget one leave.target, (← lift.write.symbol?, ← enter.write.symbol?),
    (lift.move, enter.move)⟩

/-! ## What they are in the reduced table of a table -/

namespace Reduced

variable {t : TwoTapeTable} {one : OneTapeTable} (h : Reduced t one)
include h

theorem sourceSize_eq : sourceSize one = t.size := by
  rw [sourceSize, h.size_eq, Reduction.size_eq, setupSize_eq, blockSize_eq]
  omega

/-- No block opens at the accepting state, so the two ends of a leaf are told apart. -/
theorem sourceTarget_destination {target : Nat} (htarget : target < t.size) :
    sourceTarget one ((destination t target).index t.size) = target := by
  rw [index_destination, sourceTarget, h.accepting_eq, h.sourceSize_eq]
  by_cases haccepting : target = t.accepting
  · rw [if_pos haccepting, if_pos rfl, haccepting, Draft.accepting]
  · have hne : entry target ≠ accepting t.size := by
      rw [entry_eq, Reduction.accepting_eq]
      omega
    rw [if_neg haccepting, if_neg hne, entry_eq, setupSize_eq, blockSize_eq]
    omega

section Rule

variable {q : Nat} {read : Symbol × Symbol} {rule : Rule (Symbol × Symbol) (Move × Move)}
  (hrule : t.rule? q read = some rule)
include hrule

theorem rule?_enter :
    one.rule? ((Role.block q (.seekSecond read.1)).index t.size) (.dotted read.2) =
      some ⟨(leafRole q read .probeSecond).index t.size, .plain rule.write.2, rule.move.2⟩ :=
  h.rule?_eq_some (leaf_subset_program hrule (enter_mem_leaf q read rule _))

theorem rule?_lift :
    one.rule? ((leafRole q read .returnFirst).index t.size) (.dotted read.1) =
      some ⟨(leafRole q read .probeFirst).index t.size, .plain rule.write.1, rule.move.1⟩ :=
  h.rule?_eq_some (leaf_subset_program hrule
    (seekBack_subset_leaf q read rule _ (probeFirst_mem_seekBack q read rule)))

theorem exists_rule?_leave :
    ∃ leave, one.rule? ((leafRole q read (.rewind .first)).index t.size) .separator =
      some leave ∧ leave.target = (destination t rule.target).index t.size := by
  rw [index_destination]
  exact h.exists_rule?_of_leavesBlock ⟨read, rule, hrule, rfl, rfl, rfl⟩

theorem sourceRule?_of_rule : sourceRule? one q read = some rule := by
  obtain ⟨leave, hleave, htarget⟩ := h.exists_rule?_leave hrule
  have henter := h.rule?_enter hrule
  have hlift := h.rule?_lift hrule
  have hstate := h.sourceTarget_destination (t.closed q read rule hrule)
  rw [← htarget] at hstate
  simp only [leafRole] at hlift hleave
  simp only [sourceRule?, h.sourceSize_eq, henter, hlift, hleave, Option.bind_eq_bind,
    Option.bind_some, Cell.symbol?, hstate]
  rfl

end Rule

/-- Every rule of a table can be read from its reduced table, and every lack of one. -/
theorem sourceRule?_eq {q : Nat} (hq : q < t.size) (read : Symbol × Symbol) :
    sourceRule? one q read = t.rule? q read := by
  cases hrule : t.rule? q read with
  | none =>
    have hnone := h.rule?_seekSecond_eq_none hq hrule
    simp only [sourceRule?, h.sourceSize_eq, hnone, Option.bind_eq_bind, Option.bind_none]
  | some rule => exact h.sourceRule?_of_rule hrule

/-- A table that two tables are reduced to was reduced from one. -/
theorem source_unique {u : TwoTapeTable} (h' : Reduced u one) : t = u := by
  have hsize : t.size = u.size := by
    rw [← h.sourceSize_eq, h'.sourceSize_eq]
  apply Table.ext_toDraft
  refine Draft.ext_rule? hsize ?_
  intro q hq read
  calc
    t.rule? q read = sourceRule? one q read := (h.sourceRule?_eq hq read).symm
    _ = u.rule? q read := h'.sourceRule?_eq (hsize ▸ hq) read

end Reduced

/-- Two-tape tables have the same reduced table only if they are the same table: with the
same number of states, and the same rule or none for each state and each two symbols. -/
theorem reduce_injective (t u : TwoTapeTable) :
    ∃ one other, reduce t = .ok one ∧ reduce u = .ok other ∧
      (one = other ↔ t = u) ∧
      (t = u ↔ t.size = u.size ∧ ∀ q read, t.rule? q read = u.rule? q read) := by
  obtain ⟨one, hone, h⟩ := exists_reduce_eq_ok t
  obtain ⟨other, hother, h'⟩ := exists_reduce_eq_ok u
  refine ⟨one, other, hone, hother, ⟨?_, ?_⟩, ⟨?_, ?_⟩⟩
  · rintro rfl
    exact h.source_unique h'
  · rintro rfl
    exact Except.ok.inj (hone.symm.trans hother)
  · rintro rfl
    exact ⟨rfl, fun _ _ => rfl⟩
  · rintro ⟨hsize, hrule⟩
    apply Table.ext_toDraft
    exact Draft.ext_rule? hsize fun q _ read => hrule q read

/-- The two tables differ only in the key of one rule, which is enough for their reduced
tables to differ. -/
theorem reduce_injective_onThen :
    ∃ one other, reduce (onThen (.zero, .one)) = .ok one ∧
      reduce (onThen (.blank, .blank)) = .ok other ∧ one ≠ other := by
  obtain ⟨one, other, hone, hother, hiff, -⟩ :=
    reduce_injective (onThen (.zero, .one)) (onThen (.blank, .blank))
  have hne : onThen (.zero, .one) ≠ onThen (.blank, .blank) := by decide
  exact ⟨one, other, hone, hother, fun heq => hne (hiff.mp heq)⟩

end TapeReduction.Reduction
