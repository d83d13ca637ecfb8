import TapeReduction.Proofs.Emulation

/-!
# Making room for the first tape

When the first tape grows, the separator behind it and the whole second region go one
cell right.  The machine carries one cell at a time: it puts down the cell in hand and
takes up the one it finds there, first for the separator, then for each cell of the
region and at last for the closing separator.  This moves every cell by one place and
keeps them in order, whatever the cells are and however many there are.
-/

namespace TapeReduction.Reduction

open Cell (separator dotted plain)

/-- The machine in a role of a leaf, its head somewhere on the tape. -/
def atLeaf (states q : Nat) (read : Symbol × Symbol) (r : LeafRole) (cells : List Cell)
    (head steps : Nat) : Config OneTape :=
  ⟨(leafRole q read r).index states, ⟨cells.toArray, head⟩, steps, none⟩

section Leaf

variable {t : TwoTapeTable} {q : Nat} {read : Symbol × Symbol}
  {rule : Rule (Symbol × Symbol) (Move × Move)}

/-- The leaf of a rule that moves the first head right can make room. -/
theorem shiftSecond_subset_program (hrule : t.rule? q read = some rule)
    (hmove : rule.move.1 = .right) : shiftSecond (leafRole q read) ⊆ program t := by
  intro i hi
  have hhome : i ∈ moveHome q read rule.write.1 rule.move.1 (destination t rule.target) := by
    rw [hmove]
    exact List.mem_append_left _ (List.mem_append_right _ (List.mem_cons_of_mem _ hi))
  exact leaf_subset_program hrule (moveHome_subset_leaf q read rule _ hhome)

/-- From the first cell of the second region the machine takes all of it one cell right.  It
ends on the last cell of the region. -/
theorem walk_region (front : List Cell) {region : List Cell} (hne : region ≠ [])
    (hregion : separator ∉ region) (k : Nat) :
    InnerWalk (shiftSecond (leafRole q read)) (region.length + 2)
      ⟨leafRole q read .carrySeparator, front, region ++ separator :: blanks k⟩
      (.back (leafRole q read (.rewind .second)) (front ++ separator :: region)
        (separator :: blanks (k - 1))) := by
  obtain ⟨c, z, rfl⟩ := List.exists_cons_of_ne_nil hne
  rw [← tail_blanks]
  exact walk_shiftSecond (inRegion_of_separator_notMem hregion) (headD_blanks k)
    (fun _ _ _ _ => trivial) trivial trivial

end Leaf

/-- In the leaf of a rule that moves the first head right, the separator and the cells of the
second region, any but separators, go one cell right in two steps more than there are cells.
Nothing before them changes, and the tape gets longer only if there is no blank behind it. -/
theorem growth_shifts_second_region (t : TwoTapeTable) :
    ∃ one, reduce t = .ok one ∧
      ∀ (q : Nat) (read : Symbol × Symbol) (rule : Rule (Symbol × Symbol) (Move × Move)),
        t.rule? q read = some rule → rule.move.1 = .right →
        ∀ (front region : List Cell) (k steps : Nat), region ≠ [] → separator ∉ region →
          one.step^[region.length + 2] (atLeaf t.size q read .carrySeparator
              (front ++ region ++ [separator] ++ blanks k) front.length steps) =
            atLeaf t.size q read (.rewind .second)
              (front ++ [separator] ++ region ++ [separator] ++ blanks (k - 1))
              (front.length + region.length) (steps + (region.length + 2)) := by
  obtain ⟨one, hreduce, h⟩ := exists_reduce_eq_ok t
  refine ⟨one, hreduce, ?_⟩
  intro q read rule hrule hmove front region k steps hne hregion
  have hwalk := (walk_region front hne hregion k).subset
    (shiftSecond_subset_program hrule hmove)
  obtain ⟨hrun, -⟩ := h.iterate_step_of_walk (fun x _ hx => hx.ne_accept) hwalk steps
  have hstart : atLeaf t.size q read .carrySeparator
      (front ++ region ++ [separator] ++ blanks k) front.length steps =
        Spot.config t.size
          ⟨leafRole q read .carrySeparator, front, region ++ separator :: blanks k⟩ steps := by
    simp [atLeaf, Spot.config, Spot.tape, Spot.cells]
  rw [hstart, hrun, Spot.config, Spot.tape_back]
  simp [atLeaf, Spot.back]

/-- The tape ends with the last separator and gets one cell longer. -/
theorem growth_shifts_second_region_leadingOne :
    ∃ one, reduce leadingOne = .ok one ∧
      one.step^[4] (atLeaf 2 0 (.one, .blank) .carrySeparator
          [separator, plain .one, dotted .blank, plain .blank, dotted .one, separator] 3 9) =
        atLeaf 2 0 (.one, .blank) (.rewind .second)
          [separator, plain .one, dotted .blank, separator, plain .blank, dotted .one, separator]
          5 13 := by
  obtain ⟨one, hreduce, h⟩ := growth_shifts_second_region leadingOne
  exact ⟨one, hreduce, h 0 (.one, .blank) _ rfl rfl [separator, plain .one, dotted .blank]
    [plain .blank, dotted .one] 0 9 (by decide) (by decide)⟩

end TapeReduction.Reduction
