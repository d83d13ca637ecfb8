import TapeReduction.Proofs.Numbering

/-!
# Which roles share a number

The roles of a machine are listed in the order of their numbers, one for each
state.  A role that is not on the list has no number of its own: it doubles a
role that is.  There are four families of such roles, the two ways of moving each
head in a leaf, carrying a separator as if it were a cell, and carrying a blank as
if it were an input symbol.  Nothing else shares a number.
-/

namespace TapeReduction.Reduction

/-! ## The list of roles -/

theorem map_offset_setupRoles : setupRoles.map SetupRole.offset = List.range setupSize :=
  rfl

theorem map_offset_blockRoles : blockRoles.map BlockRole.offset = List.range blockSize := by
  decide +kernel

/-- The roles of the blocks follow one another without a gap. -/
theorem map_index_blocks (states n : Nat) :
    ((List.range n).flatMap fun q => blockRoles.map (.block q)).map (Role.index states) =
      List.range' setupSize (n * blockSize) := by
  induction n with
  | zero => simp
  | succ n ih =>
    have hblock : (blockRoles.map (.block n)).map (Role.index states) =
        List.range' (setupSize + n * blockSize) blockSize := by
      calc (blockRoles.map (.block n)).map (Role.index states)
          = (blockRoles.map BlockRole.offset).map (entry n + ·) := by
            rw [List.map_map, List.map_map]
            rfl
        _ = (List.range blockSize).map (entry n + ·) := by
            rw [map_offset_blockRoles]
        _ = List.range' (entry n) blockSize := (List.range'_eq_map_range ..).symm
    rw [List.range_succ, List.flatMap_append, List.map_append, ih, List.flatMap_singleton,
      hblock, Nat.succ_mul, List.range'_append_1]

/-- The numbers of the roles, in the order of the list, are all numbers of states. -/
theorem map_index_roles (states : Nat) :
    (roles states).map (Role.index states) = List.range (size states) := by
  have hsetup : (setupRoles.map .setup).map (Role.index states) = List.range setupSize := by
    rw [List.map_map]
    exact map_offset_setupRoles
  have haccept : [Role.accept].map (Role.index states) =
      List.range' (setupSize + states * blockSize) 1 := rfl
  have hjoin : List.range' 0 setupSize ++ List.range' setupSize (states * blockSize + 1) =
      List.range' 0 (setupSize + (states * blockSize + 1)) := by
    have happend := List.range'_append_1 (s := 0) (m := setupSize) (n := states * blockSize + 1)
    rwa [Nat.zero_add] at happend
  rw [roles, List.map_append, List.map_append, hsetup, map_index_blocks, haccept,
    List.range_eq_range', List.append_assoc, List.range'_append_1, hjoin, ← Nat.add_assoc,
    ← List.range_eq_range']
  rfl

theorem length_roles (states : Nat) : (roles states).length = size states := by
  rw [← List.length_map (Role.index states), map_index_roles, List.length_range]

theorem exists_role_with_index {states i : Nat} (hi : i < size states) :
    ∃ role, (roles states)[i]? = some role ∧ role.index states = i := by
  have hget : ((roles states).map (Role.index states))[i]? = some i := by
    rw [map_index_roles, List.getElem?_range hi]
  rw [List.getElem?_map] at hget
  exact Option.map_eq_some_iff.mp hget

/-! ## Roles without a number of their own -/

/-- The first role has no number of its own and takes that of the second. -/
inductive Role.Doubles : Role → Role → Prop
  /-- The second head moves one way or the other. -/
  | moveSecond (q : Nat) (read : Symbol × Symbol) :
    Doubles (.block q (.leaf read .restoreSecond)) (.block q (.leaf read .extendSecond))
  /-- The first head moves one way or the other. -/
  | moveFirst (q : Nat) (read : Symbol × Symbol) :
    Doubles (.block q (.leaf read .restoreFirst)) (.block q (.leaf read .carrySeparator))
  /-- A separator is carried as a cell of a region, or as the last separator. -/
  | carryLast (q : Nat) (read : Symbol × Symbol) :
    Doubles (.block q (.leaf read (.carryCell .separator))) (.block q (.leaf read .carryLast))
  /-- A blank counts as the first of the input symbols. -/
  | carryBlank (first : Bool) :
    Doubles (.setup (.carry .blank first)) (.setup (.carry .zero first))

theorem Role.Doubles.index_eq {x y : Role} (h : x.Doubles y) (states : Nat) :
    x.index states = y.index states := by
  cases h with
  | moveSecond q read => rfl
  | moveFirst q read => rfl
  | carryLast q read => rfl
  | carryBlank first => rfl

/-- No number has three roles. -/
theorem Role.Doubles.left_unique {x y z : Role} (hx : x.Doubles z) (hy : y.Doubles z) :
    x = y := by
  cases hx with
  | moveSecond q read => cases hy with | moveSecond => rfl
  | moveFirst q read => cases hy with | moveFirst => rfl
  | carryLast q read => cases hy with | carryLast => rfl
  | carryBlank first => cases hy with | carryBlank => rfl

/-- A role stands for its state, or doubles the role that does. -/
theorem Role.slot_eq_or_doubles (x : Role) : x.slot = x ∨ x.Doubles x.slot := by
  cases x with
  | accept => exact .inl rfl
  | setup role =>
    cases role with
    | carry symbol first =>
      cases symbol with
      | blank => exact .inr (.carryBlank first)
      | zero => exact .inl rfl
      | one => exact .inl rfl
    | _ => exact .inl rfl
  | block q role =>
    cases role with
    | leaf read role =>
      cases role with
      | restoreSecond => exact .inr (.moveSecond q read)
      | restoreFirst => exact .inr (.moveFirst q read)
      | carryCell cell =>
        cases cell with
        | separator => exact .inr (.carryLast q read)
        | plain s => exact .inl rfl
        | dotted s => exact .inl rfl
      | _ => exact .inl rfl
    | _ => exact .inl rfl

/-- Roles have the same number exactly if they are the same or one doubles the other. -/
theorem Role.index_eq_iff {states : Nat} {x y : Role}
    (hx : x.Within states) (hy : y.Within states) :
    x.index states = y.index states ↔ x = y ∨ x.Doubles y ∨ y.Doubles x := by
  constructor
  · intro h
    have hslot := slot_eq_of_index_eq hx hy h
    rcases x.slot_eq_or_doubles with hx | hx
    · rcases y.slot_eq_or_doubles with hy | hy
      · exact .inl (hx.symm.trans (hslot.trans hy))
      · rw [← hslot, hx] at hy
        exact .inr (.inr hy)
    · rcases y.slot_eq_or_doubles with hy | hy
      · rw [hslot, hy] at hx
        exact .inr (.inl hx)
      · rw [hslot] at hx
        exact .inl (hx.left_unique hy)
  · rintro (rfl | h | h)
    · rfl
    · exact h.index_eq states
    · exact (h.index_eq states).symm

/-- The list of roles has one role for each state, in the order of their numbers.  Of the
roles of a machine, two have the same number exactly if they are the same or one doubles the
other, and every number is that of a state. -/
theorem roles_number_the_states (states : Nat) :
    (roles states).length = size states ∧
    (∀ i < size states, ∃ role, (roles states)[i]? = some role ∧ role.index states = i) ∧
    ∀ x y : Role, x.Within states → y.Within states →
      (x.index states = y.index states ↔ x = y ∨ x.Doubles y ∨ y.Doubles x) ∧
      x.index states < size states := by
  refine ⟨length_roles states, ?_, ?_⟩
  · intro i hi
    exact exists_role_with_index hi
  · intro x y hx hy
    exact ⟨Role.index_eq_iff hx hy, Role.index_lt_size hx⟩

/-- In the last of three blocks, putting the second head back has the number of making its
tape longer, and that is not the number of moving on. -/
theorem roles_number_the_states_three :
    (Role.block 2 (.leaf (.zero, .one) .restoreSecond)).index 3 =
        (Role.block 2 (.leaf (.zero, .one) .extendSecond)).index 3 ∧
      (Role.block 2 (.leaf (.zero, .one) .extendSecond)).index 3 ≠
        (Role.block 2 (.leaf (.zero, .one) .returnSecond)).index 3 ∧
      (Role.block 2 (.leaf (.zero, .one) .returnSecond)).index 3 < size 3 := by
  have hwithin (role : LeafRole) : (Role.block 2 (.leaf (.zero, .one) role)).Within 3 := by
    show 2 < 3
    decide
  obtain ⟨-, -, hroles⟩ := roles_number_the_states 3
  refine ⟨?_, ?_, ?_⟩
  · exact (hroles _ _ (hwithin _) (hwithin _)).1.mpr (.inr (.inl (.moveSecond 2 _)))
  · intro h
    rcases (hroles _ _ (hwithin _) (hwithin _)).1.mp h with heq | hdouble | hdouble
    · cases heq
    · cases hdouble
    · cases hdouble
  · exact (hroles _ _ (hwithin _) (hwithin .probeFirst)).2

end TapeReduction.Reduction
