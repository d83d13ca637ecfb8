import TapeReduction.Proofs.Simulation

/-!
# A reduced machine ends as its two-tape machine does

A halting run of the two-tape machine gives one of the reduced machine with the
same verdict, and an infinite one an infinite one.  Because a machine does
exactly one of these, both hold in the other direction, too.
-/

namespace TapeReduction.Reduction

namespace Reduced

variable {t : TwoTapeTable} {one : OneTapeTable} {c : Config TwoTapes} {d : Config OneTape}
  {m : Nat}

theorem haltsWith_reducedVerdict (h : Reduced t one) (hstart : Starts t one c d m)
    (hc : c.halted = none) {v : Verdict} (hv : t.HaltsWith c v) :
    one.HaltsWith d (reducedVerdict t.size v) := by
  obtain ⟨l, hl⟩ := hv
  obtain ⟨k, -, hk, hlast⟩ := Table.exists_last_step hc hl
  obtain ⟨n, -, -, -, hn, -⟩ := h.exists_halt_of_starts hstart hk hlast
  exact ⟨n, hn⟩

/-- The entries of an infinite run are at ever later steps, and the machine is running at
each of them. -/
theorem runsForever (h : Reduced t one) (hstart : Starts t one c d m)
    (hforever : t.RunsForever c) : one.RunsForever d := by
  intro n
  obtain ⟨i, hcount, hmeets, -⟩ := h.exists_meeting_of_starts hstart (hforever n)
  have hle : n ≤ i := by
    rw [← hcount]
    exact Nat.count_le _
  refine one.running_of_le ?_ hle
  rw [hmeets.eq_atBlock]
  rfl

/-- The other direction is by determinism: if the two-tape machine did something else, so
would the reduced machine. -/
theorem haltsWith_iff_of_starts (h : Reduced t one) (hstart : Starts t one c d m)
    (hc : c.halted = none) {v : Verdict} (hv : v = .accept t.accepting ∨ v = .reject) :
    one.HaltsWith d (reducedVerdict t.size v) ↔ t.HaltsWith c v := by
  constructor
  · intro hone
    rcases t.haltsWith_or_runsForever c with ⟨v', hv'⟩ | hforever
    · have hsame := hone.unique (h.haltsWith_reducedVerdict hstart hc hv')
      rcases hv with rfl | rfl
      · rcases Table.haltsWith_cases hc hv' with rfl | rfl
        · exact hv'
        · cases hsame
      · rcases Table.haltsWith_cases hc hv' with rfl | rfl
        · cases hsame
        · exact hv'
    · exact absurd (h.runsForever hstart hforever) (Table.not_runsForever_of_haltsWith hone)
  · exact h.haltsWith_reducedVerdict hstart hc

theorem runsForever_iff_of_starts (h : Reduced t one) (hstart : Starts t one c d m)
    (hc : c.halted = none) : one.RunsForever d ↔ t.RunsForever c := by
  constructor
  · intro hone
    rcases t.haltsWith_or_runsForever c with ⟨v, hv⟩ | hforever
    · exact absurd hone
        (Table.not_runsForever_of_haltsWith (h.haltsWith_reducedVerdict hstart hc hv))
    · exact hforever
  · exact h.runsForever hstart

variable {w : List Symbol}

theorem haltsWith_iff (h : Reduced t one) (hw : ∀ x ∈ w, x ∈ Symbol.inputs) {v : Verdict}
    (hv : v = .accept t.accepting ∨ v = .reject) :
    one.HaltsWith (.oneTape w) (reducedVerdict t.size v) ↔
      t.HaltsWith (.twoTapes w []) v :=
  h.haltsWith_iff_of_starts (h.starts_layout hw) rfl hv

theorem runsForever_iff (h : Reduced t one) (hw : ∀ x ∈ w, x ∈ Symbol.inputs) :
    one.RunsForever (.oneTape w) ↔ t.RunsForever (.twoTapes w []) :=
  h.runsForever_iff_of_starts (h.starts_layout hw) rfl

end Reduced

/-- Every two-tape table can be reduced, and on every input the reduced machine accepts,
rejects or runs forever exactly if the two-tape machine with an empty second tape does. -/
theorem reduce_preserves_verdicts (t : TwoTapeTable) :
    ∃ one, reduce t = .ok one ∧ ∀ w : List Symbol, (∀ x ∈ w, x ∈ Symbol.inputs) →
      (one.HaltsWith (.oneTape w) (.accept one.accepting) ↔
        t.HaltsWith (.twoTapes w []) (.accept t.accepting)) ∧
      (one.HaltsWith (.oneTape w) .reject ↔ t.HaltsWith (.twoTapes w []) .reject) ∧
      (one.RunsForever (.oneTape w) ↔ t.RunsForever (.twoTapes w [])) := by
  obtain ⟨one, hreduce, h⟩ := exists_reduce_eq_ok t
  refine ⟨one, hreduce, ?_⟩
  intro w hw
  refine ⟨?_, ?_, ?_⟩
  · rw [h.accepting_eq]
    exact h.haltsWith_iff hw (.inl rfl)
  · exact h.haltsWith_iff hw (.inr rfl)
  · exact h.runsForever_iff hw

theorem reduce_preserves_verdicts_leadingOne :
    ∃ one, reduce leadingOne = .ok one ∧
      one.HaltsWith (.oneTape [.one, .zero]) (.accept one.accepting) ∧
      one.HaltsWith (.oneTape []) .reject := by
  obtain ⟨one, hreduce, h⟩ := reduce_preserves_verdicts leadingOne
  refine ⟨one, hreduce, ?_, ?_⟩
  · exact (h [.one, .zero] (by decide)).1.mpr ⟨1, rfl⟩
  · exact (h [] (by decide)).2.1.mpr ⟨1, rfl⟩

end TapeReduction.Reduction
