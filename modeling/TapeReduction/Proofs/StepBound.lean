import TapeReduction.Proofs.Simulation

/-!
# The step bound of a reduced machine

A reduced machine goes through one block for each step of its two-tape machine,
and through one more if that machine rejects.  No block is longer than the tape
at its end allows, and the tape is no longer than the steps made so far allow,
so the number of all steps is within the bound.
-/

namespace TapeReduction.Reduction

section Size

variable (one : OneTapeTable)

/-- The kept part of a tape never shrinks. -/
theorem size_cells_le_step (d : Config OneTape) :
    d.tapes.cells.size ≤ (one.step d).tapes.cells.size := by
  by_cases hd : d.halted = none
  · have hsettle : d.tapes.cells.size ≤ d.tapes.settle.cells.size := by
      rw [Tape.size_cells_settle]
      exact Nat.le_max_left _ _
    cases hrule : one.rule? d.state (Tapes.scan (Tapes.settle d.tapes)) with
    | none =>
      rw [one.step_of_rule?_eq_none hd hrule]
      exact hsettle
    | some rule =>
      rw [one.step_of_rule?_eq_some hd hrule]
      have hwrite : d.tapes.settle.cells.size ≤ (d.tapes.settle.write rule.write).cells.size := by
        rw [Tape.write, Array.size_setIfInBounds, Tape.size_cells_settle d.tapes.settle]
        exact Nat.le_max_left _ _
      refine hsettle.trans (hwrite.trans_eq ?_)
      rcases rule with ⟨target, write, _ | _⟩
      · rfl
      · rfl
  · rw [one.step_of_halted (Option.isSome_iff_ne_none.mpr hd)]

theorem size_cells_iterate_step_mono (d : Config OneTape) {n m : Nat} (hle : n ≤ m) :
    (one.step^[n] d).tapes.cells.size ≤ (one.step^[m] d).tapes.cells.size := by
  induction hle with
  | refl => exact Nat.le_refl _
  | step _ ih =>
    rw [Function.iterate_succ_apply']
    exact ih.trans (size_cells_le_step one _)

end Size

/-- The bound allows for laying out the tape and for one block more than the steps made. -/
theorem lapBound_le_stepBound
    (inputLength : Nat) {laps steps : Nat} (hlaps : laps ≤ steps + 1) :
    2 * Equivalence.layoutLength inputLength +
        lapBound laps (Equivalence.layoutLength inputLength + 2 * steps) ≤
      Equivalence.stepBound inputLength steps :=
  Nat.add_le_add_left (lapBound_mono hlaps (by omega)) _

/-- The steps the two-tape machine has made when it halts give the reduced machine steps
enough, and its tape is then no longer than the tapes of the other laid out. -/
theorem Reduced.exists_halt_lt_stepBound {t : TwoTapeTable} {one : OneTapeTable}
    {w : List Symbol} (h : Reduced t one) (hw : ∀ x ∈ w, x ∈ Symbol.inputs) {k : Nat}
    {v : Verdict} (hk : (t.step^[k] (.twoTapes w [])).halted = none)
    (hlast : (t.step^[k + 1] (.twoTapes w [])).halted = some v) :
    ∃ n < Equivalence.stepBound w.length (t.step^[k + 1] (.twoTapes w [])).steps,
      (one.step^[n] (.oneTape w)).halted = some (reducedVerdict t.size v) ∧
      (one.step^[n] (.oneTape w)).tapes.cells.size =
        width (t.step^[k + 1] (.twoTapes w [])).tapes := by
  obtain ⟨n, -, -, -, hn, hsize, hbound⟩ := h.exists_halt hw hk hlast
  have hlaps := t.le_steps_iterate_step hk (Nat.le_add_right k 1)
  have hsteps := lapBound_le_stepBound w.length (Nat.succ_le_succ hlaps)
  exact ⟨n, hbound.trans_le hsteps, hn, hsize⟩

/-- If the two-tape machine halts, with `s` steps made, the reduced machine halts with fewer
steps than the bound for `s`, so a run with the bound as its limit is not given up.  At no
moment of the run are more than `2 * s` cells kept beyond those of the layout. -/
theorem stepBound_suffices (t : TwoTapeTable) :
    ∃ one, reduce t = .ok one ∧ ∀ w : List Symbol, (∀ x ∈ w, x ∈ Symbol.inputs) →
      ∀ n s, (t.step^[n] (.twoTapes w [])).halted.isSome →
        (t.step^[n] (.twoTapes w [])).steps = s →
        (∃ m, (one.step^[m] (.oneTape w)).halted.isSome ∧
          (one.step^[m] (.oneTape w)).steps < Equivalence.stepBound w.length s) ∧
        (one.resume (Equivalence.stepBound w.length s) (.oneTape w)).1.undetermined = false ∧
        ∀ i, (one.step^[i] (.oneTape w)).tapes.cells.size ≤ max w.length 1 + 4 + 2 * s := by
  obtain ⟨one, hreduce, h⟩ := exists_reduce_eq_ok t
  refine ⟨one, hreduce, ?_⟩
  intro w hw n s hn hs
  obtain ⟨v, hv⟩ := Option.isSome_iff_exists.mp hn
  obtain ⟨k, hlt, hk, hlast⟩ := Table.exists_last_step rfl hv
  -- The last configuration is there from the last step on.
  have hfinal := t.iterate_step_eq_of_le (Option.isSome_of_eq_some hlast) hlt
  rw [hfinal] at hs
  subst hs
  obtain ⟨m, hsteps, hm, hsize⟩ := h.exists_halt_lt_stepBound hw hk hlast
  have hsome : (one.step^[m] (.oneTape w)).halted.isSome := Option.isSome_of_eq_some hm
  refine ⟨⟨m, hsome, ?_⟩, ?_, ?_⟩
  · have hle := one.steps_iterate_step_le (.oneTape w) m
    exact hle.trans_lt ((Nat.zero_add m).trans_lt hsteps)
  · refine Table.resume_determined rfl ?_ hsome
    exact (Nat.zero_add m).trans_le (Nat.le_of_lt hsteps)
  · intro i
    have hmono := size_cells_iterate_step_mono one (.oneTape w) (Nat.le_max_left i m)
    rw [one.iterate_step_eq_of_le hsome (Nat.le_max_right i m), hsize] at hmono
    exact hmono.trans (width_twoTapes_le t w (k + 1))

/-- Two cells are read, one step is made. -/
theorem stepBound_suffices_leadingOne :
    ∃ one, reduce leadingOne = .ok one ∧
      (one.resume (Equivalence.stepBound 2 1) (.oneTape [.one, .zero])).1.undetermined =
        false := by
  obtain ⟨one, hreduce, h⟩ := stepBound_suffices leadingOne
  exact ⟨one, hreduce, (h [.one, .zero] (by decide) 1 1 rfl rfl).2.1⟩

end TapeReduction.Reduction
