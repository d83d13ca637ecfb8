import TapeReduction.Proofs.Simulation

/-!
# The laid-out tape at every step

From the first block on, the tape of a reduced machine always begins with a
separator, and the separators and dots on it are three and two, but for the one
that a role has in hand.  A block keeps to this on its whole way, whether it
leads to the next block or halts the machine, so it holds along every run.
-/

namespace TapeReduction.Reduction

namespace Reduced

variable {t : TwoTapeTable} {one : OneTapeTable}

/-- From a meeting on the machine is always tidy.  A block is tidy up to its end, and there
the machine meets the next configuration or halts for good. -/
theorem tidy_of_meets
    (h : Reduced t one) {c : Config TwoTapes} {d : Config OneTape} (hmeets : Meets t c d)
    (n : Nat) : Tidy t (one.step^[n] d) := by
  induction n using Nat.strongRecOn generalizing c d with
  | ind n ih =>
    obtain ⟨lap, hpos, -, -, htidy, hnext, hlast⟩ := h.exists_lap_of_meets hmeets
    rcases Nat.lt_or_ge lap n with hlt | hle
    · obtain ⟨rest, rfl⟩ := Nat.exists_eq_add_of_le (Nat.le_of_lt hlt)
      cases hhalted : (t.step c).halted with
      | none =>
        rw [Nat.add_comm, Function.iterate_add_apply]
        apply ih rest
        · omega
        · exact hnext hhalted
      | some v =>
        obtain ⟨hverdict, -⟩ := hlast v hhalted
        rw [one.iterate_step_eq_of_le (Option.isSome_of_eq_some hverdict)
          (Nat.le_add_right lap rest)]
        exact htidy lap (Nat.le_refl lap)
    · exact htidy n hle

theorem tidy_of_starts
    (h : Reduced t one) {c : Config TwoTapes} {d : Config OneTape} {m n : Nat}
    (hstart : Starts t one c d m) (hle : m ≤ n) : Tidy t (one.step^[n] d) := by
  obtain ⟨rest, rfl⟩ := Nat.exists_eq_add_of_le hle
  rw [Nat.add_comm, Function.iterate_add_apply]
  exact h.tidy_of_meets hstart.meets rest

end Reduced

theorem Tidy.exists_role {t : TwoTapeTable} {c : Config OneTape} (h : Tidy t c) :
    ∃ x, (∀ y, Plays t c.state y ↔ y = x) ∧ Marked x c.tapes.cells.toList := by
  obtain ⟨x, hstate, hsound⟩ := h
  have hplays : Plays t c.state x := ⟨hsound.within, hsound.fits, hstate.symm⟩
  refine ⟨x, ?_, hsound.marked⟩
  intro y
  constructor
  · intro hy
    exact hy.unique hplays
  · rintro rfl
    exact hplays

/-- On every input the reduced machine comes to its first block.  From there on, and also
where it has halted, its state plays exactly one role.  Its tape begins with a separator and
has three of them, or two if the role lacks one; it has two dots, or one if the role lacks
one; and it can be decoded exactly if the role lacks neither. -/
theorem tape_marked_at_every_step (t : TwoTapeTable) :
    ∃ one, reduce t = .ok one ∧ ∀ w : List Symbol, (∀ x ∈ w, x ∈ Symbol.inputs) →
      ∃ arrival, (one.step^[arrival] (.oneTape w)).state = entry 0 ∧
        (∀ j < arrival, (one.step^[j] (.oneTape w)).state ≠ entry 0) ∧
        ∀ n ≥ arrival, ∃ x, (∀ y, Plays t (one.step^[n] (.oneTape w)).state y ↔ y = x) ∧
          Marked x (one.step^[n] (.oneTape w)).tapes.cells.toList := by
  obtain ⟨one, hreduce, h⟩ := exists_reduce_eq_ok t
  refine ⟨one, hreduce, ?_⟩
  intro w hw
  have hstart := h.starts_layout hw
  refine ⟨layoutSteps w.length, ?_, ?_, ?_⟩
  · rw [hstart.meets.eq_atBlock]
    rfl
  · intro j hj hentry
    exact hstart.quiet j hj ⟨0, t.size_pos, hentry⟩
  · intro n hn
    exact (h.tidy_of_starts hstart hn).exists_role

/-- At the entry of the first block nothing is in hand. -/
theorem tape_marked_at_every_step_leadingOne :
    ∃ one, reduce leadingOne = .ok one ∧ ∃ n,
      (one.step^[n] (.oneTape [.one, .zero])).state = entry 0 ∧
      (one.step^[n] (.oneTape [.one, .zero])).tapes.cells.toList.count .separator = 3 ∧
      (one.step^[n] (.oneTape [.one, .zero])).tapes.cells.toList.countP Cell.isDotted = 2 := by
  obtain ⟨one, hreduce, h⟩ := tape_marked_at_every_step leadingOne
  obtain ⟨n, hentry, -, hmarked⟩ := h [.one, .zero] (by decide)
  obtain ⟨x, hplays, hx⟩ := hmarked n (Nat.le_refl n)
  have hrole : .block 0 .enter = x :=
    (hplays _).mp ⟨leadingOne.size_pos, trivial, hentry.symm⟩
  subst hrole
  exact ⟨one, hreduce, n, hentry, hx.count_separator, hx.countP_isDotted⟩

end TapeReduction.Reduction
