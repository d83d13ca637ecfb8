import TapeReduction.Reduction.Role

/-!
# The numbers of roles

Different roles have different numbers, but for the few that share a state: the
two ways of moving a head in a leaf, and the roles of carrying something that is
never carried.  `slot` picks one role for each state, so that the statement is
that roles with the same number have the same slot.

Blocks are intervals of numbers.  The number right behind the last block, which
would be the entry of one more block, is the accepting state.
-/

namespace TapeReduction.Reduction

theorem setupSize_eq : setupSize = 11 :=
  rfl

theorem seekSize_eq : seekSize = 8 :=
  rfl

theorem leafSize_eq : leafSize = 15 :=
  rfl

theorem blockSize_eq : blockSize = 143 :=
  rfl

/-! ## One role for each state -/

/-- The role that stands for all roles with the number of a role. -/
def SetupRole.slot : SetupRole → SetupRole
  | .carry .blank first => .carry .zero first
  | role => role

/-- The role that stands for all roles with the number of a role: the one of the head
that moves right. -/
def LeafRole.slot : LeafRole → LeafRole
  | .restoreSecond => .extendSecond
  | .restoreFirst => .carrySeparator
  | .carryCell .separator => .carryLast
  | role => role

def BlockRole.slot : BlockRole → BlockRole
  | .leaf read role => .leaf read role.slot
  | role => role

def Role.slot : Role → Role
  | .setup role => .setup role.slot
  | .block state role => .block state role.slot
  | .accept => .accept

/-! ## Inside one block -/

theorem symbolIndex_lt (s : Symbol) : symbolIndex s < 3 := by
  cases s <;> decide

theorem symbolIndex_inj {s s' : Symbol} (h : symbolIndex s = symbolIndex s') : s = s' := by
  have hget (s : Symbol) : Symbol.all[symbolIndex s]? = some s := by
    cases s <;> rfl
  exact Option.some.inj ((hget s).symm.trans ((congrArg _ h).trans (hget s')))

theorem leafIndex_lt (read : Symbol × Symbol) : leafIndex read < 9 := by
  have h1 := symbolIndex_lt read.1
  have h2 := symbolIndex_lt read.2
  simp only [leafIndex, Symbol.all, List.length_cons, List.length_nil]
  omega

theorem leafIndex_inj {read read' : Symbol × Symbol} (h : leafIndex read = leafIndex read') :
    read = read' := by
  have h1 := symbolIndex_lt read.2
  have h2 := symbolIndex_lt read'.2
  simp only [leafIndex, Symbol.all, List.length_cons, List.length_nil] at h
  have hfirst : read.1 = read'.1 := symbolIndex_inj (by omega)
  have hsecond : read.2 = read'.2 := symbolIndex_inj (by omega)
  exact Prod.ext hfirst hsecond

theorem SetupRole.getElem?_setupRoles (r : SetupRole) :
    setupRoles[r.offset]? = some r.slot := by
  cases r with
  | carry symbol first => cases symbol <;> cases first <;> rfl
  | rewind side => cases side <;> rfl
  | _ => rfl

theorem SetupRole.offset_lt (r : SetupRole) : r.offset < setupSize :=
  (List.getElem?_eq_some_iff.mp r.getElem?_setupRoles).1

theorem SetupRole.slot_eq_of_offset_eq {x y : SetupRole} (h : x.offset = y.offset) :
    x.slot = y.slot := by
  have hx := x.getElem?_setupRoles
  rw [h, y.getElem?_setupRoles] at hx
  exact (Option.some.inj hx).symm

theorem LeafRole.getElem?_leafRoles (r : LeafRole) : leafRoles[r.offset]? = some r.slot := by
  cases r with
  | carryCell cell =>
    rcases cell with s | s | _
    · cases s <;> rfl
    · cases s <;> rfl
    · rfl
  | rewind side => cases side <;> rfl
  | _ => rfl

theorem LeafRole.offset_lt (r : LeafRole) : r.offset < leafSize :=
  (List.getElem?_eq_some_iff.mp r.getElem?_leafRoles).1

theorem LeafRole.slot_eq_of_offset_eq {x y : LeafRole} (h : x.offset = y.offset) :
    x.slot = y.slot := by
  have hx := x.getElem?_leafRoles
  rw [h, y.getElem?_leafRoles] at hx
  exact (Option.some.inj hx).symm

theorem BlockRole.offset_lt (r : BlockRole) : r.offset < blockSize := by
  rw [blockSize_eq]
  cases r with
  | enter => decide
  | seekFirst => decide
  | crossFirst symbol => cases symbol <;> decide
  | seekSecond symbol => cases symbol <;> decide
  | leaf read role =>
    have hread := leafIndex_lt read
    have hrole := role.offset_lt
    simp only [offset, seekSize_eq, leafSize_eq] at hrole ⊢
    omega

/-- Only entering a block has the first number of the block. -/
theorem BlockRole.offset_eq_zero {r : BlockRole} (h : r.offset = 0) : r = .enter := by
  cases r with
  | enter => rfl
  | seekFirst => simp [offset] at h
  | crossFirst symbol => simp [offset] at h
  | seekSecond symbol => simp [offset] at h
  | leaf read role => simp [offset, seekSize_eq] at h

theorem BlockRole.offset_lt_seekSize {r : BlockRole} (hr : ∀ read role, r ≠ .leaf read role) :
    r.offset < seekSize := by
  cases r with
  | leaf read role => exact absurd rfl (hr read role)
  | crossFirst symbol => cases symbol <;> decide
  | seekSecond symbol => cases symbol <;> decide
  | _ => decide

theorem BlockRole.seekSize_le_offset_leaf (read : Symbol × Symbol) (role : LeafRole) :
    seekSize ≤ (leaf read role).offset := by
  simp only [offset]
  omega

/-- Before the leaves no number is shared. -/
theorem BlockRole.getElem?_blockRoles {r : BlockRole} (hr : ∀ read role, r ≠ .leaf read role) :
    blockRoles[r.offset]? = some r.slot := by
  cases r with
  | leaf read role => exact absurd rfl (hr read role)
  | crossFirst symbol => cases symbol <;> rfl
  | seekSecond symbol => cases symbol <;> rfl
  | _ => rfl

theorem BlockRole.slot_eq_of_offset_eq {x y : BlockRole} (h : x.offset = y.offset) :
    x.slot = y.slot := by
  by_cases hx : ∃ read role, x = .leaf read role
  · obtain ⟨read, role, rfl⟩ := hx
    by_cases hy : ∃ read role, y = .leaf read role
    · obtain ⟨read', role', rfl⟩ := hy
      have hrole := role.offset_lt
      have hrole' := role'.offset_lt
      simp only [offset, leafSize_eq] at h hrole hrole'
      have hread : read = read' := leafIndex_inj (by omega)
      have hslot : role.slot = role'.slot := LeafRole.slot_eq_of_offset_eq (by omega)
      simp only [slot, hread, hslot]
    · have hlt := offset_lt_seekSize fun read role heq => hy ⟨read, role, heq⟩
      have hle := seekSize_le_offset_leaf read role
      omega
  · have hx' := fun read role heq => hx ⟨read, role, heq⟩
    by_cases hy : ∃ read role, y = .leaf read role
    · obtain ⟨read', role', rfl⟩ := hy
      have hlt := offset_lt_seekSize hx'
      have hle := seekSize_le_offset_leaf read' role'
      omega
    · have hslot := getElem?_blockRoles hx'
      rw [h, getElem?_blockRoles fun read role heq => hy ⟨read, role, heq⟩] at hslot
      exact (Option.some.inj hslot).symm

/-! ## Among all blocks -/

/-- The role is not in the block of a state that a machine with `states` states lacks. -/
def Role.Within (states : Nat) : Role → Prop
  | .block state _ => state < states
  | _ => True

theorem entry_eq (state : Nat) : entry state = 11 + state * 143 :=
  rfl

/-- The accepting state is where the entry of one more block would be. -/
theorem accepting_eq (states : Nat) : accepting states = 11 + states * 143 :=
  rfl

theorem size_eq (states : Nat) : size states = 11 + states * 143 + 1 :=
  rfl

theorem Role.index_setup_lt (states : Nat) (r : SetupRole) :
    (Role.setup r).index states < setupSize :=
  r.offset_lt

theorem Role.index_block_bounds {states q : Nat} (hq : q < states) (r : BlockRole) :
    setupSize ≤ (Role.block q r).index states ∧
      (Role.block q r).index states < accepting states := by
  have hoffset := r.offset_lt
  simp only [index, entry_eq, accepting_eq, setupSize_eq, blockSize_eq] at hoffset ⊢
  omega

theorem Role.index_lt_accepting {states : Nat} {x : Role} (hx : x.Within states)
    (hne : x ≠ .accept) : x.index states < accepting states := by
  cases x with
  | setup role =>
    have hlt := index_setup_lt states role
    rw [setupSize_eq] at hlt
    rw [accepting_eq]
    omega
  | block state role => exact (index_block_bounds hx role).2
  | accept => exact absurd rfl hne

theorem Role.index_lt_size {states : Nat} {x : Role} (hx : x.Within states) :
    x.index states < size states := by
  by_cases hne : x = .accept
  · subst hne
    exact Nat.lt_succ_self _
  · exact Nat.lt_succ_of_lt (index_lt_accepting hx hne)

/-- Roles with the same number share a state on purpose. -/
theorem Role.slot_eq_of_index_eq {states : Nat} {x y : Role}
    (hx : x.Within states) (hy : y.Within states)
    (h : x.index states = y.index states) : x.slot = y.slot := by
  by_cases hxa : x = .accept
  · by_cases hya : y = .accept
    · rw [hxa, hya]
    · have hlt := index_lt_accepting hy hya
      rw [← h, hxa] at hlt
      exact absurd hlt (Nat.lt_irrefl _)
  · by_cases hya : y = .accept
    · have hlt := index_lt_accepting hx hxa
      rw [h, hya] at hlt
      exact absurd hlt (Nat.lt_irrefl _)
    · rcases x with r | ⟨q, r⟩ | _
      · rcases y with r' | ⟨q', r'⟩ | _
        · exact congrArg Role.setup (SetupRole.slot_eq_of_offset_eq h)
        · have hlt := index_setup_lt states r
          have hle := (index_block_bounds hy r').1
          omega
        · exact absurd rfl hya
      · rcases y with r' | ⟨q', r'⟩ | _
        · have hlt := index_setup_lt states r'
          have hle := (index_block_bounds hx r).1
          omega
        · have hr := r.offset_lt
          have hr' := r'.offset_lt
          simp only [index, entry_eq, blockSize_eq] at h hr hr'
          have hq : q = q' := by omega
          have hslot : r.slot = r'.slot := BlockRole.slot_eq_of_offset_eq (by omega)
          simp only [slot, hq, hslot]
        · exact absurd rfl hya
      · exact absurd rfl hxa

/-- The entry of a block is the number of no role but that of entering it. -/
theorem Role.index_ne_entry {states q : Nat} {x : Role} (hq : q < states)
    (hx : ∀ state, x ≠ .block state .enter) : x.index states ≠ entry q := by
  intro h
  cases x with
  | setup role =>
    have hoffset := role.offset_lt
    simp only [index, entry_eq, setupSize_eq] at hoffset h
    omega
  | block state role =>
    have hoffset := role.offset_lt
    simp only [index, entry_eq, blockSize_eq] at hoffset h
    have hzero : role.offset = 0 := by omega
    exact hx state (congrArg _ (BlockRole.offset_eq_zero hzero))
  | accept =>
    simp only [index, entry_eq, accepting_eq] at h
    omega

end TapeReduction.Reduction
