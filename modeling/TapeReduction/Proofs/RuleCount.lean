import TapeReduction.Proofs.Emulation

/-!
# How many rules a reduced table has

Drafting a program never meets two instructions for the same state and cell, so
no instruction is lost and the reduced table has as many rules as the program
has instructions.  Laying out the tape and looking for the heads take a fixed
number of them.  The leaf of a rule takes more if its first head moves right,
because the second region has to make room.
-/

namespace TapeReduction.Reduction

/-! ## The length of a program -/

theorem length_setup : setup.length = 33 :=
  rfl

theorem length_seek (q : Nat) : (seek q).length = 28 :=
  rfl

section Leaf

variable (role : LeafRole → Role) (write : Symbol) (move : Move)

theorem length_rewind (second first next : Role) : (rewind second first next).length = 14 :=
  rfl

/-- Both ways of moving the second head take the same number of instructions. -/
theorem length_moveSecond : (moveSecond role write move).length = 5 := by
  cases move with
  | left => rfl
  | right => rfl

theorem length_seekBack (read : Symbol) : (seekBack role read write move).length = 11 :=
  rfl

theorem length_shiftSecond : (shiftSecond role).length = 49 :=
  rfl

theorem length_moveFirst_left : (moveFirst role write .left).length = 5 :=
  rfl

theorem length_moveFirst_right : (moveFirst role write .right).length = 53 := by
  simp only [moveFirst, List.length_append, List.length_cons, length_shiftSecond]
  rfl

end Leaf

/-- The number of instructions of a leaf whose first head moves a way. -/
def leafLength : Move → Nat
  | .left => 36
  | .right => 84

theorem length_leaf
    (q : Nat) (read : Symbol × Symbol) (rule : Rule (Symbol × Symbol) (Move × Move))
    (next : Role) : (leaf q read rule next).length = leafLength rule.move.1 := by
  simp only [leaf, List.length_append, length_moveSecond, length_seekBack, length_rewind]
  cases rule.move.1 with
  | left =>
    rw [length_moveFirst_left]
    rfl
  | right =>
    rw [length_moveFirst_right]
    rfl

/-- The number of entries whose first head moves a way. -/
def firstMoves (move : Move)
    (l : List ((Symbol × Symbol) × Rule (Symbol × Symbol) (Move × Move))) : Nat :=
  l.countP fun entry => entry.2.move.1 = move

theorem length_leaves
    (t : TwoTapeTable) (q : Nat)
    (l : List ((Symbol × Symbol) × Rule (Symbol × Symbol) (Move × Move))) :
    (l.flatMap fun entry => leaf q entry.1 entry.2 (destination t entry.2.target)).length =
      36 * firstMoves .left l + 84 * firstMoves .right l := by
  induction l with
  | nil => rfl
  | cons entry l ih =>
    rw [List.flatMap_cons, List.length_append, length_leaf, ih]
    simp only [firstMoves, List.countP_cons]
    cases entry.2.move.1 with
    | left => grind [leafLength]
    | right => grind [leafLength]

theorem length_block (t : TwoTapeTable) (q : Nat) :
    (block t q).length =
      28 + 36 * firstMoves .left (t.rules q) + 84 * firstMoves .right (t.rules q) := by
  rw [block, List.length_append, length_seek, length_leaves, Nat.add_assoc]

theorem length_blocks (t : TwoTapeTable) (n : Nat) :
    ((List.range n).flatMap (block t)).length =
      28 * n + 36 * firstMoves .left ((List.range n).flatMap t.rules) +
        84 * firstMoves .right ((List.range n).flatMap t.rules) := by
  induction n with
  | zero => rfl
  | succ n ih =>
    rw [List.range_succ, List.flatMap_append, List.flatMap_append, List.flatMap_singleton,
      List.flatMap_singleton, List.length_append, ih, length_block]
    simp only [firstMoves, List.countP_append]
    omega

theorem length_program (t : TwoTapeTable) :
    (program t).length =
      33 + 28 * t.size + 36 * firstMoves .left ((List.range t.size).flatMap t.rules) +
        84 * firstMoves .right ((List.range t.size).flatMap t.rules) := by
  rw [program, List.length_append, length_setup, length_blocks]
  omega

/-! ## The reduced table -/

theorem Reduced.ruleCount_eq
    {t : TwoTapeTable} {one : OneTapeTable} (h : Reduced t one) :
    one.ruleCount = (program t).length :=
  Draft.ruleCount_eq_length _ _ _ nodup_indexed_keys_program h.rule?_eq_some_iff

/-- Every two-tape table can be reduced, and every instruction of its program is a rule of
the reduced table.  The last state is the accepting one and has no rules, and the number of
rules depends on the number of states and on how often the first head moves each way. -/
theorem reduce_keeps_every_instruction (t : TwoTapeTable) :
    ∃ one, reduce t = .ok one ∧
      one.size = 11 + 143 * t.size + 1 ∧
      one.accepting = accepting t.size ∧
      one.rules one.accepting = [] ∧
      (∀ i ∈ program t,
        one.rule? (i.source.index t.size) i.read = some (i.rule t.size)) ∧
      one.ruleCount =
        33 + 28 * t.size + 36 * firstMoves .left ((List.range t.size).flatMap t.rules) +
          84 * firstMoves .right ((List.range t.size).flatMap t.rules) := by
  obtain ⟨one, hreduce, h⟩ := exists_reduce_eq_ok t
  refine ⟨one, hreduce, ?_, h.accepting_eq, ?_, ?_, ?_⟩
  · rw [h.size_eq, size_eq, Nat.mul_comm t.size]
  · exact Draft.rules_eq_nil_of_rule?_eq_none one.accepting_rule?
  · intro i hi
    exact h.rule?_eq_some hi
  · rw [h.ruleCount_eq, length_program]

/-- The only rule of the two-tape table moves both heads right. -/
theorem reduce_keeps_every_instruction_leadingOne :
    ∃ one, reduce leadingOne = .ok one ∧ one.size = 298 ∧ one.ruleCount = 173 ∧
      one.rule? 0 .blank = some ⟨5, .separator, .right⟩ := by
  obtain ⟨one, hreduce, hsize, -, -, hrule, hcount⟩ := reduce_keeps_every_instruction leadingOne
  have hstart : ⟨.setup .start, .blank, .setup .emptyInput, .separator, .right⟩ ∈
      program leadingOne := setup_subset_program (by simp [setup])
  exact ⟨one, hreduce, hsize, hcount, hrule _ hstart⟩

end TapeReduction.Reduction
