import Mathlib.Data.Nat.Nth
import TapeReduction.Proofs.Simulation

/-!
# Lockstep of whole runs

The entries of blocks in a run of the reduced machine are exactly its meetings
with the two-tape machine.  That every configuration is met is known; here no
entry is in excess, so the entries in order are the configurations in order.
For runs that halt the same is said of their records.
-/

namespace TapeReduction.Reduction

/-- The kept part of a tape, with blanks up to its head. -/
def padded (tape : Tape Symbol.blank) : List Symbol :=
  tape.cells.toList ++ List.replicate (tape.head + 1 - tape.cells.size) .blank

theorem keptPair_eq_padded (tapes : TwoTapes) :
    keptPair tapes = ⟨(padded tapes.1, padded tapes.2), (tapes.1.head, tapes.2.head)⟩ := by
  have hsettle (tape : Tape Symbol.blank) : tape.settle.cells.toList = padded tape := by
    unfold Tape.settle padded
    split
    · next hlt =>
      rw [Nat.sub_eq_zero_of_le hlt]
      simp
    · simp
  rw [keptPair, hsettle, hsettle]

/-- The reduced machine is at the entry of the state of the two-tape machine, on its first
cell, and its tape shows the tapes of the two-tape machine and nothing else. -/
structure Shows (c : Config TwoTapes) (d : Config OneTape) : Prop where
  running : d.halted = none
  state_eq : d.state = entry c.state
  head_eq : d.tapes.head = 0
  cells_eq : d.tapes.cells.toList = TapePair.cells
    ⟨(padded c.tapes.1, padded c.tapes.2), (c.tapes.1.head, c.tapes.2.head)⟩
  decode_eq : decode d.tapes.cells.toList = .ok
    ⟨(padded c.tapes.1, padded c.tapes.2), (c.tapes.1.head, c.tapes.2.head)⟩

theorem Meets.shows {t : TwoTapeTable} {c : Config TwoTapes} {d : Config OneTape}
    (hmeets : Meets t c d) : Shows c d := by
  have hcells : d.tapes.cells.toList = (keptPair c.tapes).cells := by
    rw [hmeets.eq_atBlock]
    simp [atBlock, Tape.ofList, blanks]
  have hdecode := TapePair.decode_cells (keptPair_seated c.tapes)
  rw [← hcells] at hdecode
  rw [keptPair_eq_padded] at hcells hdecode
  refine ⟨?_, ?_, ?_, hcells, hdecode⟩
  · rw [hmeets.eq_atBlock]
    rfl
  · rw [hmeets.eq_atBlock]
    rfl
  · rw [hmeets.eq_atBlock]
    rfl

/-! ## Entries are meetings -/

namespace Reduced

variable {t : TwoTapeTable} {one : OneTapeTable} {w : List Symbol}

/-- If the two-tape machine halted earlier, the reduced machine would have halted before
the entry. -/
theorem running_of_entersAfter (h : Reduced t one) (hw : ∀ x ∈ w, x ∈ Symbol.inputs) {i : Nat}
    (hi : EntersAfter t one (.oneTape w) i) {k : Nat}
    (hk : k ≤ Nat.count (EntersAfter t one (.oneTape w)) i) :
    (t.step^[k] (.twoTapes w [])).halted = none := by
  induction k with
  | zero => rfl
  | succ k ih =>
    by_contra hhalted
    obtain ⟨v, hv⟩ := Option.ne_none_iff_exists'.mp hhalted
    obtain ⟨n, hcount, hentry, -, hn, -⟩ := h.exists_halt hw (ih (by omega)) hv
    rcases Nat.lt_or_ge i n with hlt | hle
    · have hbefore := Nat.count_strict_mono hi hlt
      omega
    · rw [EntersAfter, one.iterate_step_eq_of_le (Option.isSome_of_eq_some hn) hle] at hi
      exact hentry hi

/-- The `k`-th entry is where the `k`-th configuration is met. -/
theorem meets_nth (h : Reduced t one) (hw : ∀ x ∈ w, x ∈ Symbol.inputs) {k : Nat}
    (hk : (t.step^[k] (.twoTapes w [])).halted = none) :
    Nat.count (EntersAfter t one (.oneTape w)) (Nat.nth (EntersAfter t one (.oneTape w)) k) = k ∧
      Meets t (t.step^[k] (.twoTapes w []))
        (one.step^[Nat.nth (EntersAfter t one (.oneTape w)) k] (.oneTape w)) := by
  obtain ⟨i, hcount, hmeets⟩ := h.exists_meeting hw hk
  have hnth : Nat.nth (EntersAfter t one (.oneTape w)) k = i := by
    rw [← hcount]
    exact Nat.nth_count hmeets.atEntry
  rw [hnth]
  exact ⟨hcount, hmeets⟩

theorem entersAfter_iff (h : Reduced t one) (hw : ∀ x ∈ w, x ∈ Symbol.inputs) (i : Nat) :
    EntersAfter t one (.oneTape w) i ↔ ∃ k, (t.step^[k] (.twoTapes w [])).halted = none ∧
      Nat.nth (EntersAfter t one (.oneTape w)) k = i := by
  constructor
  · intro hi
    exact ⟨_, h.running_of_entersAfter hw hi (Nat.le_refl _), Nat.nth_count hi⟩
  · rintro ⟨k, hk, rfl⟩
    exact (h.meets_nth hw hk).2.atEntry

theorem nth_entersAfter_lt (h : Reduced t one) (hw : ∀ x ∈ w, x ∈ Symbol.inputs) {j k : Nat}
    (hlt : j < k) (hk : (t.step^[k] (.twoTapes w [])).halted = none) :
    Nat.nth (EntersAfter t one (.oneTape w)) j < Nat.nth (EntersAfter t one (.oneTape w)) k := by
  obtain ⟨hcountj, -⟩ := h.meets_nth hw (t.running_of_le hk (Nat.le_of_lt hlt))
  obtain ⟨hcountk, -⟩ := h.meets_nth hw hk
  apply Nat.lt_of_count_lt_count (p := EntersAfter t one (.oneTape w))
  rwa [hcountj, hcountk]

end Reduced

/-! ## The records of runs that halt -/

/-- The numbers below `n` with a property, in order. -/
theorem filter_range_eq_map_nth (p : Nat → Prop) [DecidablePred p] (n : Nat) :
    (List.range n).filter (fun i => decide (p i)) =
      (List.range (Nat.count p n)).map (Nat.nth p) := by
  induction n with
  | zero => simp
  | succ n ih =>
    rw [List.range_succ, List.filter_append, ih, Nat.count_succ]
    by_cases hn : p n
    · simp [hn, List.range_succ, Nat.nth_count hn]
    · simp [hn]

/-- The states in a record at which blocks are entered are those of the two-tape machine,
from its start on. -/
theorem Reduced.filter_visited {t : TwoTapeTable} {one : OneTapeTable} {w : List Symbol}
    (h : Reduced t one) (hw : ∀ x ∈ w, x ∈ Symbol.inputs) {k m : Nat} {v v' : Verdict}
    (hk : (t.step^[k] (.twoTapes w [])).halted = none)
    (hv : (t.step^[k + 1] (.twoTapes w [])).halted = some v)
    (hm : (one.step^[m] (.oneTape w)).halted = none)
    (hv' : (one.step^[m + 1] (.oneTape w)).halted = some v') :
    (one.visited (.oneTape w) m).filter (fun s => ∃ q < t.size, s = entry q) =
      (0 :: t.visited (.twoTapes w []) k).map entry := by
  obtain ⟨n, hcount, -, hrunning, hn, -⟩ := h.exists_halt hw hk hv
  have hlast : n = m + 1 := by
    have hle : m < n := by
      by_contra hge
      rw [one.running_of_le hm (Nat.le_of_not_lt hge)] at hn
      cases hn
    by_contra hne
    rw [hrunning (m + 1) (by omega)] at hv'
    cases hv'
  have hstart : ¬EntersAfter t one (.oneTape w) 0 :=
    not_atEntry_of_inner (x := .setup .start) trivial rfl
  calc (one.visited (.oneTape w) m).filter (fun s => ∃ q < t.size, s = entry q)
      = ((List.range (m + 1)).filter (fun i => decide (EntersAfter t one (.oneTape w) i))).map
          fun i => (one.step^[i] (.oneTape w)).state := by
        rw [List.range_succ_eq_map, List.filter_cons_of_neg (by simpa using hstart),
          Table.visited, List.filter_map, List.filter_map, List.map_map]
        rfl
    _ = (List.range (k + 1)).map
          fun j => (one.step^[Nat.nth (EntersAfter t one (.oneTape w)) j] (.oneTape w)).state := by
        rw [filter_range_eq_map_nth, ← hlast, hcount, List.map_map]
        rfl
    _ = (List.range (k + 1)).map fun j => entry (t.step^[j] (.twoTapes w [])).state := by
        apply List.map_congr_left
        intro j hj
        have hj : j ≤ k := Nat.le_of_lt_succ (List.mem_range.mp hj)
        exact (h.meets_nth hw (t.running_of_le hk hj)).2.shows.state_eq
    _ = (0 :: t.visited (.twoTapes w []) k).map entry := by
        rw [List.range_succ_eq_map, List.map_cons, List.map_cons, Table.visited, List.map_map,
          List.map_map]
        rfl

/-! ## Lockstep -/

/-- On every input the entries of blocks in the run of the reduced machine are, in order,
where it shows the configurations of the run of the two-tape machine, and there are as many
of them.  If the run of the two-tape machine halts, so does that of the reduced machine, and
the entries on its record are those of the states on the other record. -/
theorem runs_in_lockstep (t : TwoTapeTable) :
    ∃ one, reduce t = .ok one ∧ ∀ w : List Symbol, (∀ x ∈ w, x ∈ Symbol.inputs) →
      (∃ τ : Nat → Nat,
        (∀ i, AtEntry t.size (one.step^[i] (.oneTape w)) ↔
          ∃ k, (t.step^[k] (.twoTapes w [])).halted = none ∧ τ k = i) ∧
        (∀ j k, j < k → (t.step^[k] (.twoTapes w [])).halted = none → τ j < τ k) ∧
        ∀ k, (t.step^[k] (.twoTapes w [])).halted = none →
          Shows (t.step^[k] (.twoTapes w [])) (one.step^[τ k] (.oneTape w))) ∧
      ∀ limit, (t.resume limit (.twoTapes w [])).1.undetermined = false →
        (∃ bound, ∀ limit' ≥ bound,
          (one.resume limit' (.oneTape w)).1.undetermined = false) ∧
        ∀ limit', (one.resume limit' (.oneTape w)).1.undetermined = false →
          (one.resume limit' (.oneTape w)).1.states.filter (fun s => ∃ q < t.size, s = entry q) =
            (0 :: (t.resume limit (.twoTapes w [])).1.states).map entry := by
  obtain ⟨one, hreduce, h⟩ := exists_reduce_eq_ok t
  refine ⟨one, hreduce, ?_⟩
  intro w hw
  refine ⟨⟨Nat.nth (EntersAfter t one (.oneTape w)), h.entersAfter_iff hw, ?_, ?_⟩, ?_⟩
  · intro j k hlt hk
    exact h.nth_entersAfter_lt hw hlt hk
  · intro k hk
    exact (h.meets_nth hw hk).2.shows
  · intro limit hlimit
    obtain ⟨k, v, hk, hv, htwo⟩ := Table.exists_of_resume_determined rfl hlimit
    constructor
    · obtain ⟨n, -, -, -, hn, -⟩ := h.exists_halt hw hk hv
      refine ⟨n, ?_⟩
      intro limit' hle
      refine Table.resume_determined rfl ?_ (Option.isSome_of_eq_some hn)
      exact (Nat.zero_add n).trans_le hle
    · intro limit' hlimit'
      obtain ⟨m, v', hm, hv', hone⟩ := Table.exists_of_resume_determined rfl hlimit'
      rw [htwo, hone]
      exact h.filter_visited hw hk hv hm hv'

theorem runs_in_lockstep_leadingOne :
    ∃ one, reduce leadingOne = .ok one ∧ ∃ limit,
      (one.resume limit (.oneTape [.one, .zero])).1.states.filter
        (fun s => ∃ q < leadingOne.size, s = entry q) = [entry 0] := by
  obtain ⟨one, hreduce, h⟩ := runs_in_lockstep leadingOne
  obtain ⟨⟨bound, hbound⟩, hentries⟩ := (h [.one, .zero] (by decide)).2 5 rfl
  exact ⟨one, hreduce, bound, hentries bound (hbound bound (Nat.le_refl bound))⟩

end TapeReduction.Reduction
