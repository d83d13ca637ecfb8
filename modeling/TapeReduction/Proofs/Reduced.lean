import Mathlib.Data.List.Nodup
import TapeReduction.Proofs.Drafting
import TapeReduction.Proofs.Numbering
import TapeReduction.Reduction.Program

/-!
# The reduced table exists and says what the program says

No two instructions of a program are for the same state and cell, although the
roles of the two ways of moving a head share their states: a leaf holds the
instructions for one way only.  So all instructions can be drafted, and the
draft passes its checks.  The rules of the reduced table are then exactly the
instructions with numbers in place of roles.
-/

namespace TapeReduction.Reduction

/-- The state and the cell an instruction is for, the state by its slot. -/
def Instruction.key (i : Instruction) : Role × Cell :=
  (i.source.slot, i.read)

/-- The roles of the leaf for what the heads read in a block. -/
def leafRole (q : Nat) (read : Symbol × Symbol) (r : LeafRole) : Role :=
  .block q (.leaf read r)

theorem slot_leafRole (q : Nat) (read : Symbol × Symbol) (r : LeafRole) :
    (leafRole q read r).slot = .block q (.leaf read r.slot) :=
  rfl

theorem slot_seekSecond (q : Nat) (s : Symbol) :
    (Role.block q (.seekSecond s)).slot = .block q (.seekSecond s) :=
  rfl

theorem LeafRole.offset_slot (r : LeafRole) : r.slot.offset = r.offset := by
  cases r with
  | carryCell cell =>
    rcases cell with s | s | _
    · cases s <;> rfl
    · cases s <;> rfl
    · rfl
  | _ => rfl

theorem offset_eq_of_slot_leafRole_eq
    {q q' : Nat} {read read' : Symbol × Symbol} {r r' : LeafRole}
    (h : (leafRole q read r).slot = (leafRole q' read' r').slot) :
    r.offset = r'.offset := by
  simp only [slot_leafRole, Role.block.injEq, BlockRole.leaf.injEq] at h
  rw [← r.offset_slot, h.2.2, r'.offset_slot]

/-! ## Where the instructions of a fragment start and end -/

section Endpoints

variable (q : Nat) (read : Symbol × Symbol) (w : Symbol) (m : Move) (next : Role)

theorem endpoints_of_mem_setup : ∀ i ∈ setup,
    (∃ r, i.source = .setup r) ∧
      ((∃ r, i.target = .setup r) ∨ i.target = .block 0 .enter) := by
  simp [setup, rewind, pass, Symbol.inputs, Cell.inRegion, Symbol.all]

/-- Looking for the heads never reads the second one. -/
theorem endpoints_of_mem_seek : ∀ i ∈ seek q,
    (∃ r, i.source = .block q r ∧ (∀ read role, r ≠ .leaf read role) ∧
      ∀ a b, r = .seekSecond a → i.read ≠ .dotted b) ∧
    ∃ r, i.target = .block q r := by
  simp [seek, pass, Symbol.all]

theorem endpoints_of_mem_moveSecond : ∀ i ∈ moveSecond (leafRole q read) w m,
    (∃ r, i.source = leafRole q read r ∧ 0 ≤ r.offset ∧ r.offset < 2) ∧
      ∃ r, i.target = leafRole q read r := by
  intro i hi
  rcases List.mem_append.mp hi with hi | hi
  · obtain ⟨s, -, rfl⟩ := List.mem_map.mp hi
    exact ⟨⟨_, rfl, by decide⟩, _, rfl⟩
  · cases m with
    | left =>
      rcases List.mem_pair.mp hi with rfl | rfl
      · exact ⟨⟨_, rfl, by decide⟩, _, rfl⟩
      · exact ⟨⟨_, rfl, by decide⟩, _, rfl⟩
    | right =>
      rcases List.mem_pair.mp hi with rfl | rfl
      · exact ⟨⟨_, rfl, by decide⟩, _, rfl⟩
      · exact ⟨⟨_, rfl, by decide⟩, _, rfl⟩

theorem endpoints_of_mem_seekBack (s : Symbol) : ∀ i ∈ seekBack (leafRole q read) s w m,
    (∃ r, i.source = leafRole q read r ∧ 2 ≤ r.offset ∧ r.offset < 4) ∧
      ∃ r, i.target = leafRole q read r := by
  intro i hi
  simp only [seekBack, List.mem_append, List.mem_map, List.mem_singleton] at hi
  rcases hi with ((⟨_, -, rfl⟩ | rfl) | ⟨_, -, rfl⟩) | rfl
  · exact ⟨⟨_, rfl, by decide⟩, _, rfl⟩
  · exact ⟨⟨_, rfl, by decide⟩, _, rfl⟩
  · exact ⟨⟨_, rfl, by decide⟩, _, rfl⟩
  · exact ⟨⟨_, rfl, by decide⟩, _, rfl⟩

theorem endpoints_of_mem_shiftSecond : ∀ i ∈ shiftSecond (leafRole q read),
    (∃ r, i.source = leafRole q read r ∧ 5 ≤ r.offset ∧ r.offset < 13) ∧
      ∃ r, i.target = leafRole q read r := by
  intro i hi
  have hcarry : ∀ cell ∈ Cell.inRegion,
      5 ≤ (LeafRole.carryCell cell).offset ∧ (LeafRole.carryCell cell).offset < 13 := by
    decide
  simp only [shiftSecond, List.mem_append, List.mem_flatMap, List.mem_map,
    List.mem_singleton] at hi
  rcases hi with ⟨cell, hcell, (rfl | ⟨_, -, rfl⟩) | rfl⟩ | rfl
  · exact ⟨⟨_, rfl, by decide⟩, _, rfl⟩
  · exact ⟨⟨_, rfl, hcarry cell hcell⟩, _, rfl⟩
  · exact ⟨⟨_, rfl, hcarry cell hcell⟩, _, rfl⟩
  · exact ⟨⟨_, rfl, by decide⟩, _, rfl⟩

theorem endpoints_of_mem_moveFirst : ∀ i ∈ moveFirst (leafRole q read) w m,
    (∃ r, i.source = leafRole q read r ∧ 4 ≤ r.offset ∧ r.offset < 13) ∧
      ∃ r, i.target = leafRole q read r := by
  intro i hi
  rcases List.mem_append.mp hi with hi | hi
  · obtain ⟨s, -, rfl⟩ := List.mem_map.mp hi
    exact ⟨⟨_, rfl, by decide⟩, _, rfl⟩
  · cases m with
    | left =>
      rcases List.mem_pair.mp hi with rfl | rfl
      · exact ⟨⟨_, rfl, by decide⟩, _, rfl⟩
      · exact ⟨⟨_, rfl, by decide⟩, _, rfl⟩
    | right =>
      rcases List.mem_cons.mp hi with rfl | hi
      · exact ⟨⟨_, rfl, by decide⟩, _, rfl⟩
      · obtain ⟨⟨r, hr, hlo, hhi⟩, htarget⟩ := endpoints_of_mem_shiftSecond q read i hi
        exact ⟨⟨r, hr, by omega, hhi⟩, htarget⟩

theorem endpoints_of_mem_rewind :
    ∀ i ∈ rewind (leafRole q read (.rewind .second)) (leafRole q read (.rewind .first)) next,
      (∃ r, i.source = leafRole q read r ∧ 13 ≤ r.offset ∧ r.offset < 15) ∧
        ((∃ r, i.target = leafRole q read r) ∨ i.target = next) := by
  intro i hi
  simp only [rewind, List.mem_append, List.mem_flatMap, List.mem_cons, List.not_mem_nil,
    or_false] at hi
  rcases hi with ⟨_, -, rfl | rfl⟩ | rfl | rfl
  · exact ⟨⟨_, rfl, by decide⟩, .inl ⟨_, rfl⟩⟩
  · exact ⟨⟨_, rfl, by decide⟩, .inl ⟨_, rfl⟩⟩
  · exact ⟨⟨_, rfl, by decide⟩, .inl ⟨_, rfl⟩⟩
  · exact ⟨⟨_, rfl, by decide⟩, .inr rfl⟩

variable (rule : Rule (Symbol × Symbol) (Move × Move))

/-- A leaf is entered where both heads have been read; all else is in the leaf. -/
theorem endpoints_of_mem_leaf : ∀ i ∈ leaf q read rule next,
    (i.source = .block q (.seekSecond read.1) ∧ i.read = .dotted read.2 ∨
      ∃ r, i.source = leafRole q read r) ∧
    ((∃ r, i.target = leafRole q read r) ∨ i.target = next) := by
  intro i hi
  simp only [leaf, List.mem_append, List.mem_singleton] at hi
  rcases hi with (((rfl | hi) | hi) | hi) | hi
  · exact ⟨.inl ⟨rfl, rfl⟩, .inl ⟨_, rfl⟩⟩
  · obtain ⟨⟨r, hr, -⟩, htarget⟩ := endpoints_of_mem_moveSecond q read _ _ i hi
    exact ⟨.inr ⟨r, hr⟩, .inl htarget⟩
  · obtain ⟨⟨r, hr, -⟩, htarget⟩ := endpoints_of_mem_seekBack q read _ _ _ i hi
    exact ⟨.inr ⟨r, hr⟩, .inl htarget⟩
  · obtain ⟨⟨r, hr, -⟩, htarget⟩ := endpoints_of_mem_moveFirst q read _ _ i hi
    exact ⟨.inr ⟨r, hr⟩, .inl htarget⟩
  · obtain ⟨⟨r, hr, -⟩, htarget⟩ := endpoints_of_mem_rewind q read next i hi
    exact ⟨.inr ⟨r, hr⟩, htarget⟩

end Endpoints

/-! ## No two instructions for the same state and cell -/

section Keys

variable (q : Nat) (read : Symbol × Symbol)

/-- A part of a leaf with different keys, all of its roles numbered from `low` up to
`high`. -/
structure LeafPart (low high : Nat) (l : List Instruction) : Prop where
  nodup : (l.map Instruction.key).Nodup
  span : ∀ i ∈ l, ∃ r, i.source = leafRole q read r ∧ low ≤ r.offset ∧ r.offset < high

variable {q read}

/-- Parts of a leaf that are numbered one behind the other have no key in common. -/
theorem LeafPart.append {low mid high : Nat} {a b : List Instruction}
    (ha : LeafPart q read low mid a) (hb : LeafPart q read mid high b)
    (hlow : low ≤ mid) (hhigh : mid ≤ high) : LeafPart q read low high (a ++ b) where
  nodup := by
    rw [List.map_append, List.nodup_append]
    refine ⟨ha.nodup, hb.nodup, ?_⟩
    intro k hk l hl heq
    obtain ⟨i, hi, rfl⟩ := List.mem_map.mp hk
    obtain ⟨j, hj, rfl⟩ := List.mem_map.mp hl
    obtain ⟨r, hr, -, hlt⟩ := ha.span i hi
    obtain ⟨r', hr', hle, -⟩ := hb.span j hj
    have hslot : i.source.slot = j.source.slot := congrArg Prod.fst heq
    rw [hr, hr'] at hslot
    have hoffset := offset_eq_of_slot_leafRole_eq hslot
    omega
  span := by
    intro i hi
    rcases List.mem_append.mp hi with hi | hi
    · obtain ⟨r, hr, hle, hlt⟩ := ha.span i hi
      exact ⟨r, hr, hle, by omega⟩
    · obtain ⟨r, hr, hle, hlt⟩ := hb.span i hi
      exact ⟨r, hr, by omega, hlt⟩

variable (q read) (w : Symbol) (m : Move) (next : Role)

theorem leafPart_moveSecond : LeafPart q read 0 2 (moveSecond (leafRole q read) w m) where
  nodup := by
    cases w <;> cases m <;>
      simp [moveSecond, putHead, restoreHead, pass, leafRole, Instruction.key, Symbol.all,
        Role.slot, BlockRole.slot, LeafRole.slot]
  span i hi := (endpoints_of_mem_moveSecond q read w m i hi).1

theorem leafPart_seekBack (s : Symbol) :
    LeafPart q read 2 4 (seekBack (leafRole q read) s w m) where
  nodup := by
    simp [seekBack, pass, leafRole, Instruction.key, Symbol.all, Cell.inRegion, Role.slot,
      BlockRole.slot, LeafRole.slot]
  span i hi := (endpoints_of_mem_seekBack q read w m s i hi).1

theorem leafPart_shiftSecond : LeafPart q read 5 13 (shiftSecond (leafRole q read)) where
  nodup := by
    simp [shiftSecond, leafRole, Instruction.key, Symbol.all, Cell.inRegion, Role.slot,
      BlockRole.slot, LeafRole.slot]
  span i hi := (endpoints_of_mem_shiftSecond q read i hi).1

theorem leafPart_rewind :
    LeafPart q read 13 15
      (rewind (leafRole q read (.rewind .second)) (leafRole q read (.rewind .first)) next) where
  nodup := by
    simp [rewind, pass, leafRole, Instruction.key, Symbol.all, Cell.inRegion, Role.slot,
      BlockRole.slot, LeafRole.slot]
  span i hi := (endpoints_of_mem_rewind q read next i hi).1

/-- The probe of a head that moves right, without what it sets in motion. -/
theorem leafPart_probeFirst :
    LeafPart q read 4 5
      (putHead (leafRole q read .probeFirst) (leafRole q read (.rewind .first)) ++
        [⟨leafRole q read .probeFirst, .separator, leafRole q read .carrySeparator,
          .dotted .blank, .right⟩]) where
  nodup := by
    simp [putHead, leafRole, Instruction.key, Symbol.all, Role.slot, BlockRole.slot, LeafRole.slot]
  span := by
    intro i hi
    rcases List.mem_append.mp hi with hi | hi
    · obtain ⟨s, -, rfl⟩ := List.mem_map.mp hi
      exact ⟨_, rfl, by decide⟩
    · obtain rfl := List.mem_singleton.mp hi
      exact ⟨_, rfl, by decide⟩

theorem leafPart_moveFirst : LeafPart q read 4 13 (moveFirst (leafRole q read) w m) where
  nodup := by
    cases m with
    | left =>
      cases w <;>
        simp [moveFirst, putHead, restoreHead, pass, leafRole, Instruction.key, Symbol.all,
          Role.slot, BlockRole.slot, LeafRole.slot]
    | right =>
      have h := (leafPart_probeFirst q read).append (leafPart_shiftSecond q read)
        (by decide) (by decide)
      rw [List.append_assoc] at h
      exact h.nodup
  span i hi := (endpoints_of_mem_moveFirst q read w m i hi).1

theorem nodup_keys_leaf (rule : Rule (Symbol × Symbol) (Move × Move)) :
    ((leaf q read rule next).map Instruction.key).Nodup := by
  have hbody := (((leafPart_moveSecond q read rule.write.2 rule.move.2).append
    (leafPart_seekBack q read rule.write.1 rule.move.1 read.1) (by decide) (by decide)).append
    (leafPart_moveFirst q read rule.write.1 rule.move.1) (by decide) (by decide)).append
    (leafPart_rewind q read next) (by decide) (by decide)
  -- The instruction that enters the leaf is the only one outside it.
  have hleaf : leaf q read rule next =
      ⟨.block q (.seekSecond read.1), .dotted read.2, leafRole q read .probeSecond,
        .plain rule.write.2, rule.move.2⟩ ::
      (moveSecond (leafRole q read) rule.write.2 rule.move.2 ++
        seekBack (leafRole q read) read.1 rule.write.1 rule.move.1 ++
        moveFirst (leafRole q read) rule.write.1 rule.move.1 ++
        rewind (leafRole q read (.rewind .second)) (leafRole q read (.rewind .first)) next) := by
    simp only [leaf, List.cons_append]
    rfl
  rw [hleaf, List.map_cons, List.nodup_cons]
  refine ⟨?_, hbody.nodup⟩
  intro hmem
  obtain ⟨i, hi, heq⟩ := List.mem_map.mp hmem
  obtain ⟨r, hr, -⟩ := hbody.span i hi
  have hslot : i.source.slot = .block q (.seekSecond read.1) := congrArg Prod.fst heq
  rw [hr, slot_leafRole] at hslot
  simp at hslot

theorem nodup_keys_seek : ((seek q).map Instruction.key).Nodup := by
  simp [seek, pass, Instruction.key, Symbol.all, Role.slot, BlockRole.slot]

theorem nodup_keys_setup : (setup.map Instruction.key).Nodup := by
  decide +kernel

end Keys

/-- The key of an instruction of a leaf tells what the heads read. -/
theorem disjoint_keys_leaf {q : Nat} {read read' : Symbol × Symbol}
    {rule rule' : Rule (Symbol × Symbol) (Move × Move)} {next next' : Role}
    (hne : read ≠ read') :
    ((leaf q read rule next).map Instruction.key).Disjoint
      ((leaf q read' rule' next').map Instruction.key) := by
  intro k hk hk'
  obtain ⟨i, hi, rfl⟩ := List.mem_map.mp hk
  obtain ⟨j, hj, heq⟩ := List.mem_map.mp hk'
  obtain ⟨hslot, hcell⟩ := Prod.mk.inj heq
  rcases (endpoints_of_mem_leaf q read next rule i hi).1 with ⟨hi, hread⟩ | ⟨r, hi⟩
  · rcases (endpoints_of_mem_leaf q read' next' rule' j hj).1 with ⟨hj, hread'⟩ | ⟨r', hj⟩
    · rw [hi, hj, slot_seekSecond, slot_seekSecond] at hslot
      rw [hread, hread'] at hcell
      simp only [Role.block.injEq, BlockRole.seekSecond.injEq, true_and] at hslot
      simp only [Cell.dotted.injEq] at hcell
      exact hne (Prod.ext hslot.symm hcell.symm)
    · rw [hi, hj, slot_leafRole, slot_seekSecond] at hslot
      simp at hslot
  · rcases (endpoints_of_mem_leaf q read' next' rule' j hj).1 with ⟨hj, -⟩ | ⟨r', hj⟩
    · rw [hi, hj, slot_leafRole, slot_seekSecond] at hslot
      simp at hslot
    · rw [hi, hj, slot_leafRole, slot_leafRole] at hslot
      simp only [Role.block.injEq, BlockRole.leaf.injEq] at hslot
      exact hne hslot.2.1.symm

theorem nodup_keys_block (t : TwoTapeTable) (q : Nat) :
    ((block t q).map Instruction.key).Nodup := by
  rw [block, List.map_append, List.nodup_append, List.map_flatMap, List.nodup_flatMap]
  refine ⟨nodup_keys_seek q, ⟨fun e _ => nodup_keys_leaf q e.1 _ e.2, ?_⟩, ?_⟩
  · exact (t.pairwise_rules q).imp fun hne => disjoint_keys_leaf hne
  · intro k hk l hl heq
    obtain ⟨i, hi, rfl⟩ := List.mem_map.mp hk
    obtain ⟨e, -, hl⟩ := List.mem_flatMap.mp hl
    obtain ⟨j, hj, rfl⟩ := List.mem_map.mp hl
    obtain ⟨⟨r, hr, hleaf, hdotted⟩, -⟩ := endpoints_of_mem_seek q i hi
    obtain ⟨hslot, hcell⟩ := Prod.mk.inj heq
    have hr' : i.source.slot = .block q r := by
      rw [hr]
      cases r with
      | leaf read role => exact absurd rfl (hleaf read role)
      | _ => rfl
    rcases (endpoints_of_mem_leaf q e.1 _ e.2 j hj).1 with ⟨hj, hread⟩ | ⟨r', hj⟩
    · rw [hr', hj, slot_seekSecond] at hslot
      simp only [Role.block.injEq, true_and] at hslot
      exact hdotted _ _ hslot (hcell.trans hread)
    · rw [hr', hj, slot_leafRole] at hslot
      simp only [Role.block.injEq, true_and] at hslot
      exact hleaf _ _ hslot

/-! ## The whole program -/

section Program

variable {t : TwoTapeTable}

theorem setup_subset_program : setup ⊆ program t :=
  List.subset_append_left _ _

theorem block_subset_program {q : Nat} (hq : q < t.size) : block t q ⊆ program t :=
  fun _ hi => List.mem_append_right _ (List.mem_flatMap.mpr ⟨q, List.mem_range.mpr hq, hi⟩)

theorem seek_subset_program {q : Nat} (hq : q < t.size) : seek q ⊆ program t :=
  List.Subset.trans (List.subset_append_left _ _) (block_subset_program hq)

theorem leaf_subset_program {q : Nat} {read : Symbol × Symbol}
    {rule : Rule (Symbol × Symbol) (Move × Move)} (hrule : t.rule? q read = some rule) :
    leaf q read rule (destination t rule.target) ⊆ program t := by
  intro i hi
  have hentry : (read, rule) ∈ t.rules q := Draft.mem_rules_iff.mpr hrule
  exact block_subset_program (Draft.lt_size_of_rule? hrule)
    (List.mem_append_right _ (List.mem_flatMap.mpr ⟨_, hentry, hi⟩))

/-- An instruction lays out the tape, looks for the heads or belongs to the leaf of a
rule. -/
theorem mem_program_iff {i : Instruction} :
    i ∈ program t ↔ i ∈ setup ∨ ∃ q < t.size, i ∈ seek q ∨
      ∃ read rule, t.rule? q read = some rule ∧
        i ∈ leaf q read rule (destination t rule.target) := by
  simp only [program, block, List.mem_append, List.mem_flatMap, List.mem_range, Prod.exists,
    Draft.mem_rules_iff]

theorem destination_within {q : Nat} {read : Symbol × Symbol}
    {rule : Rule (Symbol × Symbol) (Move × Move)} (hrule : t.rule? q read = some rule) :
    (destination t rule.target).Within t.size := by
  unfold destination
  split
  · trivial
  · exact t.closed q read rule hrule

theorem source_of_mem_program {i : Instruction} (hi : i ∈ program t) :
    i.source.Within t.size ∧ i.source ≠ .accept := by
  rcases mem_program_iff.mp hi with hi | ⟨q, hq, hi | ⟨read, rule, hrule, hi⟩⟩
  · obtain ⟨⟨r, hr⟩, -⟩ := endpoints_of_mem_setup i hi
    simp [hr, Role.Within]
  · obtain ⟨⟨r, hr, -⟩, -⟩ := endpoints_of_mem_seek q i hi
    simp [hr, Role.Within, hq]
  · rcases (endpoints_of_mem_leaf q read _ rule i hi).1 with ⟨hr, -⟩ | ⟨r, hr⟩
    · simp [hr, Role.Within, hq]
    · simp [hr, leafRole, Role.Within, hq]

theorem target_within_of_mem_program {i : Instruction} (hi : i ∈ program t) :
    i.target.Within t.size := by
  rcases mem_program_iff.mp hi with hi | ⟨q, hq, hi | ⟨read, rule, hrule, hi⟩⟩
  · rcases (endpoints_of_mem_setup i hi).2 with ⟨r, hr⟩ | hr
    · simp [hr, Role.Within]
    · simpa [hr, Role.Within] using t.size_pos
  · obtain ⟨-, r, hr⟩ := endpoints_of_mem_seek q i hi
    simpa [hr, Role.Within] using hq
  · rcases (endpoints_of_mem_leaf q read _ rule i hi).2 with ⟨r, hr⟩ | hr
    · simpa [hr, leafRole, Role.Within] using hq
    · rw [hr]
      exact destination_within hrule

theorem nodup_keys_program : ((program t).map Instruction.key).Nodup := by
  rw [program, List.map_append, List.nodup_append, List.map_flatMap, List.nodup_flatMap]
  have hblock : ∀ q, ∀ k ∈ (block t q).map Instruction.key, ∃ r, k.1 = .block q r := by
    intro q k hk
    obtain ⟨i, hi, rfl⟩ := List.mem_map.mp hk
    rcases List.mem_append.mp hi with hi | hi
    · obtain ⟨⟨r, hr, -⟩, -⟩ := endpoints_of_mem_seek q i hi
      exact ⟨r.slot, congrArg Role.slot hr⟩
    · obtain ⟨e, -, hi⟩ := List.mem_flatMap.mp hi
      rcases (endpoints_of_mem_leaf q e.1 _ e.2 i hi).1 with ⟨hr, -⟩ | ⟨r, hr⟩
      · exact ⟨_, congrArg Role.slot hr⟩
      · exact ⟨_, congrArg Role.slot hr⟩
  refine ⟨nodup_keys_setup, ⟨fun q _ => nodup_keys_block t q, ?_⟩, ?_⟩
  · refine List.Pairwise.imp ?_ List.nodup_range
    intro q q' hne k hk hk'
    obtain ⟨r, hr⟩ := hblock q k hk
    obtain ⟨r', hr'⟩ := hblock q' k hk'
    rw [hr] at hr'
    exact hne (Role.block.inj hr').1
  · intro k hk l hl heq
    obtain ⟨i, hi, rfl⟩ := List.mem_map.mp hk
    obtain ⟨⟨r, hr⟩, -⟩ := endpoints_of_mem_setup i hi
    obtain ⟨q, -, hl⟩ := List.mem_flatMap.mp hl
    obtain ⟨r', hr'⟩ := hblock q l hl
    have hslot : i.source.slot = l.1 := congrArg Prod.fst heq
    rw [hr, hr'] at hslot
    cases hslot

/-- By number, too, no two instructions are for the same state and cell. -/
theorem nodup_indexed_keys_program :
    ((program t).map fun i => (i.source.index t.size, i.read)).Nodup := by
  have hkeys := List.pairwise_map.mp (nodup_keys_program (t := t))
  refine List.pairwise_map.mpr (hkeys.imp_of_mem ?_)
  intro i j hi hj hne heq
  obtain ⟨hindex, hread⟩ := Prod.mk.inj heq
  have hslot := Role.slot_eq_of_index_eq (source_of_mem_program hi).1
    (source_of_mem_program hj).1 hindex
  exact hne (Prod.ext hslot hread)

end Program

/-! ## The reduced table -/

/-- The rule an instruction stands for in a machine reduced from one with `states`
states. -/
def Instruction.rule (states : Nat) (i : Instruction) : Rule Cell Move :=
  ⟨i.target.index states, i.write, i.move⟩

/-- The rules of a one-tape table are the instructions of the program of a two-tape
table. -/
structure Reduced (t : TwoTapeTable) (one : OneTapeTable) : Prop where
  size_eq : one.size = size t.size
  rule?_eq_some_iff : ∀ s k r, one.rule? s k = some r ↔
    ∃ i ∈ program t, i.source.index t.size = s ∧ i.read = k ∧ i.rule t.size = r

namespace Reduced

variable {t : TwoTapeTable} {one : OneTapeTable}

theorem accepting_eq (h : Reduced t one) : one.accepting = accepting t.size := by
  rw [Draft.accepting, h.size_eq, accepting]

/-- Each instruction is a rule of the table. -/
theorem rule?_eq_some (h : Reduced t one) {i : Instruction} (hi : i ∈ program t) :
    one.rule? (i.source.index t.size) i.read = some (i.rule t.size) :=
  (h.rule?_eq_some_iff _ _ _).mpr ⟨i, hi, rfl, rfl, rfl⟩

/-- Where a two-tape table has no rule, its reduced table has none once both heads
have been read. -/
theorem rule?_seekSecond_eq_none (h : Reduced t one) {q : Nat} (hq : q < t.size)
    {read : Symbol × Symbol} (hrule : t.rule? q read = none) :
    one.rule? ((Role.block q (.seekSecond read.1)).index t.size) (.dotted read.2) = none := by
  apply Option.eq_none_iff_forall_ne_some.mpr
  intro r hr
  obtain ⟨i, hi, hindex, hread, -⟩ := (h.rule?_eq_some_iff _ _ _).mp hr
  have hslot := Role.slot_eq_of_index_eq (source_of_mem_program hi).1
    (show Role.Within t.size (.block q _) from hq) hindex
  rw [slot_seekSecond] at hslot
  rcases mem_program_iff.mp hi with hi | ⟨q', -, hi | ⟨read', rule, hrule', hi⟩⟩
  · obtain ⟨⟨r, hr⟩, -⟩ := endpoints_of_mem_setup i hi
    rw [hr] at hslot
    cases hslot
  · obtain ⟨⟨r, hr, hleaf, hdotted⟩, -⟩ := endpoints_of_mem_seek q' i hi
    cases r with
    | leaf read role => exact hleaf read role rfl
    | seekSecond a => exact hdotted a _ rfl hread
    | _ =>
      rw [hr] at hslot
      simp [Role.slot, BlockRole.slot] at hslot
  · rcases (endpoints_of_mem_leaf q' read' _ rule i hi).1 with ⟨hr, hread'⟩ | ⟨r, hr⟩
    · rw [hr, slot_seekSecond] at hslot
      simp only [Role.block.injEq, BlockRole.seekSecond.injEq] at hslot
      rw [hread, Cell.dotted.injEq] at hread'
      have heq : read' = read := Prod.ext hslot.2 hread'.symm
      rw [hslot.1, heq, hrule] at hrule'
      cases hrule'
    · rw [hr, slot_leafRole] at hslot
      simp at hslot

end Reduced

/-- Every two-tape table can be reduced. -/
theorem exists_reduce_eq_ok (t : TwoTapeTable) : ∃ one, reduce t = .ok one ∧ Reduced t one := by
  obtain ⟨d, hfold, hsize, hrule⟩ :=
    Draft.exists_foldlM_add_eq_ok (fun i : Instruction => i.source.index t.size)
      Instruction.read (Instruction.rule t.size) (program t) (Draft.ofSize (size t.size))
      (fun i hi => by
        rw [Draft.size_ofSize]
        exact Role.index_lt_size (source_of_mem_program hi).1)
      (fun i _ => Draft.rule?_ofSize _ _ _)
      nodup_indexed_keys_program
  rw [Draft.size_ofSize] at hsize
  have hrule' : ∀ s k r, d.rule? s k = some r ↔
      ∃ i ∈ program t, i.source.index t.size = s ∧ i.read = k ∧ i.rule t.size = r := by
    intro s k r
    rw [hrule, Draft.rule?_ofSize]
    simp
  have hclosed : d.Closed := by
    intro s k r hr
    obtain ⟨i, hi, -, -, rfl⟩ := (hrule' s k r).mp hr
    rw [hsize]
    exact Role.index_lt_size (target_within_of_mem_program hi)
  have hlast : ∀ k, d.rule? d.accepting k = none := by
    intro k
    apply Option.eq_none_iff_forall_ne_some.mpr
    intro r hr
    obtain ⟨i, hi, hindex, -, -⟩ := (hrule' _ k r).mp hr
    obtain ⟨hwithin, hne⟩ := source_of_mem_program hi
    have hlt := Role.index_lt_accepting hwithin hne
    rw [hindex, Draft.accepting, hsize] at hlt
    exact absurd hlt (Nat.lt_irrefl _)
  obtain ⟨one, hbuild, hdraft⟩ :=
    Draft.exists_build_eq_ok (hsize ▸ Nat.succ_pos _) hclosed hlast
  refine ⟨one, ?_, hdraft ▸ hsize, hdraft ▸ hrule'⟩
  unfold reduce
  have hfold' : (program t).foldlM (addInstruction t.size) (Draft.ofSize (size t.size)) =
      .ok d := hfold
  rw [hfold']
  exact hbuild

end TapeReduction.Reduction
