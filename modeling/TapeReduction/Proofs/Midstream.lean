import TapeReduction.Proofs.Lockstep
import TapeReduction.Proofs.Verdict

/-!
# Starting at the first block

A reduced machine can be put at the entry of its first block with two tapes
already laid out, also with tapes that laying out an input never leaves: a
second tape that is not empty, blanks anywhere.  It then ends as the two-tape
machine loaded with these tapes does, and its last tape shows the last tapes of
that machine.
-/

namespace TapeReduction.Reduction

/-- The reduced machine at the entry of its first block, on two tapes laid out. -/
def midstream (first second : List Symbol) : Config OneTape :=
  .load (entry 0) (.ofList (encode first second))

theorem starts_midstream
    (t : TwoTapeTable) (one : OneTapeTable) (first second : List Symbol) :
    Starts t one (.twoTapes first second) (midstream first second) 0 := by
  constructor
  · intro j hj
    exact absurd hj (Nat.not_lt_zero j)
  · refine ⟨rfl, t.size_pos, ?_⟩
    rw [Function.iterate_zero_apply, atBlock]
    simp only [Config.twoTapes, Config.load, cells_keptPair_ofList]
    simp [midstream, Config.load, blanks]

/-- Where both machines have halted, the tape of the reduced machine shows the tapes of the
two-tape machine. -/
theorem Reduced.decode_of_halted
    {t : TwoTapeTable} {one : OneTapeTable} {c : Config TwoTapes} {d : Config OneTape}
    {start n m : Nat} (h : Reduced t one) (hstart : Starts t one c d start)
    (hc : c.halted = none) (hn : (t.step^[n] c).halted.isSome)
    (hm : (one.step^[m] d).halted.isSome) :
    decode (one.step^[m] d).tapes.cells.toList = .ok (keptPair (t.step^[n] c).tapes) := by
  obtain ⟨v, hv⟩ := Option.isSome_iff_exists.mp hn
  obtain ⟨k, hlt, hk, hlast⟩ := Table.exists_last_step hc hv
  obtain ⟨l, -, -, hrunning, hl, hcells, -⟩ := h.exists_halt_of_starts hstart hk hlast
  -- Neither machine changes after its last step.
  have htwo : t.step^[n] c = t.step^[k + 1] c :=
    t.iterate_step_eq_of_le (Option.isSome_of_eq_some hlast) hlt
  have hle : l ≤ m := by
    by_contra hlt'
    rw [hrunning m (Nat.lt_of_not_le hlt')] at hm
    cases hm
  have hone : one.step^[m] d = one.step^[l] d :=
    one.iterate_step_eq_of_le (Option.isSome_of_eq_some hl) hle
  rw [htwo, hone, hcells]
  exact TapePair.decode_cells (keptPair_seated _)

/-- Loaded with any two tapes, the two-tape machine and the reduced machine at the entry of
its first block both accept, both reject or both run forever.  When they have halted, the
tape of the reduced machine can be decoded, and it gives the heads and the tapes of the
two-tape machine, kept up to their heads. -/
theorem midstream_runs_agree (t : TwoTapeTable) :
    ∃ one, reduce t = .ok one ∧ ∀ first second : List Symbol,
      (one.HaltsWith (midstream first second) (.accept one.accepting) ↔
        t.HaltsWith (.twoTapes first second) (.accept t.accepting)) ∧
      (one.HaltsWith (midstream first second) .reject ↔
        t.HaltsWith (.twoTapes first second) .reject) ∧
      (one.RunsForever (midstream first second) ↔
        t.RunsForever (.twoTapes first second)) ∧
      ∀ n m, (t.step^[n] (.twoTapes first second)).halted.isSome →
        (one.step^[m] (midstream first second)).halted.isSome →
        decode (one.step^[m] (midstream first second)).tapes.cells.toList = .ok
          ⟨(padded (t.step^[n] (.twoTapes first second)).tapes.1,
              padded (t.step^[n] (.twoTapes first second)).tapes.2),
            ((t.step^[n] (.twoTapes first second)).tapes.1.head,
              (t.step^[n] (.twoTapes first second)).tapes.2.head)⟩ := by
  obtain ⟨one, hreduce, h⟩ := exists_reduce_eq_ok t
  refine ⟨one, hreduce, ?_⟩
  intro first second
  have hstart := starts_midstream t one first second
  refine ⟨?_, ?_, ?_, ?_⟩
  · rw [h.accepting_eq]
    exact h.haltsWith_iff_of_starts hstart rfl (.inl rfl)
  · exact h.haltsWith_iff_of_starts hstart rfl (.inr rfl)
  · exact h.runsForever_iff_of_starts hstart rfl
  · intro n m hn hm
    rw [← keptPair_eq_padded]
    exact h.decode_of_halted hstart rfl hn hm

/-- The second tape starts with a blank and holds a symbol behind it. -/
theorem midstream_runs_agree_leadingOne :
    ∃ one, reduce leadingOne = .ok one ∧ ∃ m,
      (one.step^[m] (midstream [.one, .zero] [.blank, .one])).halted =
        some (.accept one.accepting) ∧
      decode (one.step^[m] (midstream [.one, .zero] [.blank, .one])).tapes.cells.toList =
        .ok ⟨([.one, .zero], [.one, .one]), (1, 1)⟩ := by
  obtain ⟨one, hreduce, h⟩ := midstream_runs_agree leadingOne
  obtain ⟨haccept, -, -, hdecode⟩ := h [.one, .zero] [.blank, .one]
  obtain ⟨m, hm⟩ := haccept.mpr ⟨1, rfl⟩
  exact ⟨one, hreduce, m, hm, hdecode 1 m rfl (Option.isSome_of_eq_some hm)⟩

end TapeReduction.Reduction
