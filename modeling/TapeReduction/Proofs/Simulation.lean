import Mathlib.Data.Nat.Count
import TapeReduction.Proofs.Layout
import TapeReduction.Proofs.Run

/-!
# Whole runs of a reduced machine

A two-tape machine and its reduced machine meet when the reduced machine is at
the entry of the block of the state the other is in, with the tapes of the other
laid out.  From there one block leads to the next meeting or, if the two-tape
machine halts, halts the reduced machine in the same way.  By induction on the
steps of the two-tape machine every configuration of its run is met, and the
entries of blocks are counted along the way.
-/

namespace TapeReduction.Reduction

/-- The length of two tapes laid out. -/
def width (tapes : TwoTapes) : Nat :=
  (keptPair tapes).cells.length

/-- How the reduced machine halts when a two-tape machine with `states` states halts. -/
def reducedVerdict (states : Nat) : Verdict → Verdict
  | .accept _ => .accept (accepting states)
  | .reject => .reject

/-- The reduced machine is about to make the next step of the two-tape machine. -/
structure Meets (t : TwoTapeTable) (c : Config TwoTapes) (d : Config OneTape) : Prop where
  running : c.halted = none
  state_lt : c.state < t.size
  eq_atBlock : d = atBlock c.state (keptPair c.tapes) 0 d.steps

theorem Meets.atEntry {t : TwoTapeTable} {c : Config TwoTapes} {d : Config OneTape}
    (hmeets : Meets t c d) : AtEntry t.size d := by
  refine ⟨c.state, hmeets.state_lt, ?_⟩
  rw [hmeets.eq_atBlock]
  rfl

/-- The laid-out tapes grow by at most two cells in a step that counts, and in a rejection
they stay the same. -/
theorem width_step_le (t : TwoTapeTable) (c : Config TwoTapes) :
    width (t.step c).tapes + 2 * c.steps ≤ width c.tapes + 2 * (t.step c).steps := by
  by_cases hc : c.halted = none
  · cases hrule : t.rule? c.state (Tapes.scan (Tapes.settle c.tapes)) with
    | none => simp [t.step_of_rule?_eq_none hc hrule, width, keptPair_settle]
    | some rule =>
      have hgrowth := (keptPair c.tapes).length_cells_advance_bounds rule.write rule.move
      simp only [t.step_of_rule?_eq_some hc hrule, width, keptPair_act]
      omega
  · rw [t.step_of_halted (Option.isSome_iff_ne_none.mpr hc)]

theorem width_iterate_step_le (t : TwoTapeTable) (c : Config TwoTapes) (n : Nat) :
    width (t.step^[n] c).tapes + 2 * c.steps ≤ width c.tapes + 2 * (t.step^[n] c).steps := by
  induction n with
  | zero => exact Nat.le_refl _
  | succ n ih =>
    have hstep := width_step_le t (t.step^[n] c)
    rw [Function.iterate_succ_apply']
    omega

namespace Reduced

variable {t : TwoTapeTable} {one : OneTapeTable}

/-! ## From one meeting to the next -/

section Lap

variable {c : Config TwoTapes} {d : Config OneTape}

/-- One block is one step of the two-tape machine, however that step ends. -/
theorem exists_lap_of_meets (h : Reduced t one) (hmeets : Meets t c d) :
    ∃ n, 0 < n ∧ n ≤ 4 * width (t.step c).tapes + 16 ∧ Quiet t.size one d n ∧
      (∀ j ≤ n, Tidy t (one.step^[j] d)) ∧
      ((t.step c).halted = none → Meets t (t.step c) (one.step^[n] d)) ∧
      ∀ v, (t.step c).halted = some v →
        (one.step^[n] d).halted = some (reducedVerdict t.size v) ∧
        ¬AtEntry t.size (one.step^[n] d) ∧
        (one.step^[n] d).tapes.cells.toList = (keptPair (t.step c).tapes).cells := by
  obtain ⟨hc, hlt, heq⟩ := hmeets
  have hseated := keptPair_seated c.tapes
  rw [heq]
  cases hrule : t.rule? c.state (Tapes.scan (Tapes.settle c.tapes)) with
  | none =>
    rw [t.step_of_rule?_eq_none hc hrule]
    rw [← scan_keptPair] at hrule
    obtain ⟨n, ⟨hn, htidy⟩, hquiet, hentry, hreject, hcells, -⟩ :=
      h.exists_rejection hlt hseated hrule 0 d.steps
    refine ⟨n + 1, Nat.succ_pos n, ?_, hquiet, htidy, ?_, ?_⟩
    · rw [width, keptPair_settle]
      omega
    · intro hrunning
      cases hrunning
    · intro v hv
      obtain rfl := Option.some.inj hv
      refine ⟨hreject, hentry, ?_⟩
      rw [hcells, keptPair_settle]
      simp [blanks]
  | some rule =>
    rw [t.step_of_rule?_eq_some hc hrule]
    rw [← scan_keptPair] at hrule
    have hkept := keptPair_act c.tapes rule.write rule.move
    obtain ⟨n, hpos, ⟨hn, htidy⟩, hquiet, hlast⟩ := h.exists_lap hseated hrule 0 d.steps
    rw [← hkept, Nat.zero_sub] at hlast
    rw [← hkept] at hn
    refine ⟨n, hpos, hn, hquiet, htidy, ?_, ?_⟩
    · intro hrunning
      have hne : rule.target ≠ t.accepting := by
        intro heq
        rw [Table.verdictAt, if_pos heq] at hrunning
        cases hrunning
      obtain ⟨hindex, hverdict⟩ := h.destination_of_ne (t.closed _ _ _ hrule) hne
      refine ⟨hrunning, t.closed _ _ _ hrule, ?_⟩
      rw [hlast, hverdict, hindex]
      rfl
    · intro v hv
      obtain ⟨haccept, hv⟩ := Option.ite_none_right_eq_some.mp hv
      obtain rfl := Option.some.inj hv
      obtain ⟨hindex, hverdict⟩ := h.destination_accepting
      rw [hlast, haccept, hverdict, hindex]
      refine ⟨rfl, not_atEntry_of_accepting rfl, ?_⟩
      simp [Tape.ofList, blanks]

end Lap

end Reduced

/-! ## Meetings along a run -/

/-- The reduced machine is at the entry of a block `i` steps after `d`. -/
def EntersAfter (t : TwoTapeTable) (one : OneTapeTable) (d : Config OneTape) (i : Nat) : Prop :=
  AtEntry t.size (one.step^[i] d)

instance (t : TwoTapeTable) (one : OneTapeTable) (d : Config OneTape) :
    DecidablePred (EntersAfter t one d) := fun i =>
  inferInstanceAs (Decidable (∃ q < t.size, (one.step^[i] d).state = entry q))

/-- From `d` on, the first block is entered after `m` steps, and there the reduced machine
meets the two-tape machine at `c`. -/
structure Starts (t : TwoTapeTable) (one : OneTapeTable) (c : Config TwoTapes)
    (d : Config OneTape) (m : Nat) : Prop where
  quiet : ∀ j < m, ¬EntersAfter t one d j
  meets : Meets t c (one.step^[m] d)

/-- More steps than going through `laps` blocks takes, on a tape of at most `widest`
cells. -/
def lapBound (laps widest : Nat) : Nat :=
  laps * (4 * widest + 16)

theorem lapBound_add_one (laps widest : Nat) :
    lapBound (laps + 1) widest = lapBound laps widest + (4 * widest + 16) :=
  Nat.add_one_mul laps _

theorem lapBound_mono {laps laps' widest widest' : Nat}
    (hlaps : laps ≤ laps') (hwidest : widest ≤ widest') :
    lapBound laps widest ≤ lapBound laps' widest' := by
  refine Nat.mul_le_mul hlaps ?_
  omega

section FromStart

variable {t : TwoTapeTable} {one : OneTapeTable} {c : Config TwoTapes} {d : Config OneTape}
  {m k : Nat}

/-- From one entry to the end of its block no other entry is counted. -/
theorem count_entersAfter_add {i n : Nat} (hi : EntersAfter t one d i) (hpos : 0 < n)
    (hquiet : Quiet t.size one (one.step^[i] d) n) :
    Nat.count (EntersAfter t one d) (i + n) = Nat.count (EntersAfter t one d) i + 1 := by
  obtain ⟨n, rfl⟩ := Nat.exists_eq_succ_of_ne_zero (Nat.ne_of_gt hpos)
  have hbetween : Nat.count (fun j => EntersAfter t one d (i + (j + 1))) n = 0 := by
    apply Nat.count_of_forall_not
    intro j hj
    rw [EntersAfter, Nat.add_comm i, Function.iterate_add_apply]
    exact (hquiet (j + 1) (Nat.succ_pos j) (Nat.succ_lt_succ hj)).2
  rw [Nat.count_add, Nat.succ_eq_add_one, Nat.count_succ', hbetween]
  simp [hi]

theorem width_iterate_le_of_running (hk : (t.step^[k] c).halted = none) :
    width (t.step^[k] c).tapes ≤ width c.tapes + 2 * k := by
  have hwidth := width_iterate_step_le t c k
  rw [t.steps_iterate_step hk] at hwidth
  omega

namespace Reduced

/-- Every configuration of the run of the two-tape machine is met, the `k`-th one at the
entry with `k` entries before it. -/
theorem exists_meeting_of_starts (h : Reduced t one) (hstart : Starts t one c d m)
    (hk : (t.step^[k] c).halted = none) :
    ∃ i, Nat.count (EntersAfter t one d) i = k ∧
      Meets t (t.step^[k] c) (one.step^[i] d) ∧
      i ≤ m + lapBound k (width c.tapes + 2 * k) := by
  induction k with
  | zero =>
    refine ⟨m, Nat.count_of_forall_not hstart.quiet, hstart.meets, ?_⟩
    exact Nat.le_add_right m _
  | succ k ih =>
    obtain ⟨i, hcount, hmeets, hi⟩ := ih (t.running_of_le hk (Nat.le_succ k))
    obtain ⟨n, hpos, hn, hquiet, -, hnext, -⟩ := h.exists_lap_of_meets hmeets
    have hwidth := width_iterate_le_of_running hk
    rw [Function.iterate_succ_apply'] at hk hwidth ⊢
    refine ⟨i + n, ?_, ?_, ?_⟩
    · rw [count_entersAfter_add hmeets.atEntry hpos hquiet, hcount]
    · rw [Nat.add_comm, Function.iterate_add_apply]
      exact hnext hk
    · have hbound := lapBound_mono (Nat.le_refl k)
        (Nat.add_le_add_left (Nat.mul_le_mul_left 2 (Nat.le_add_right k 1)) (width c.tapes))
      rw [lapBound_add_one]
      omega

/-- When the two-tape machine halts, the reduced machine halts in the same way, after one
more block, and its tape shows the tapes of the two-tape machine. -/
theorem exists_halt_of_starts (h : Reduced t one) (hstart : Starts t one c d m) {v : Verdict}
    (hk : (t.step^[k] c).halted = none) (hv : (t.step^[k + 1] c).halted = some v) :
    ∃ n, Nat.count (EntersAfter t one d) n = k + 1 ∧ ¬EntersAfter t one d n ∧
      (∀ j < n, (one.step^[j] d).halted = none) ∧
      (one.step^[n] d).halted = some (reducedVerdict t.size v) ∧
      (one.step^[n] d).tapes.cells.toList = (keptPair (t.step^[k + 1] c).tapes).cells ∧
      n ≤ m + lapBound k (width c.tapes + 2 * k) +
        (4 * width (t.step^[k + 1] c).tapes + 16) := by
  obtain ⟨i, hcount, hmeets, hi⟩ := h.exists_meeting_of_starts hstart hk
  obtain ⟨n, hpos, hn, hquiet, -, -, hlast⟩ := h.exists_lap_of_meets hmeets
  rw [Function.iterate_succ_apply'] at hv ⊢
  obtain ⟨hverdict, hentry, hcells⟩ := hlast v hv
  have hsplit : one.step^[i + n] d = one.step^[n] (one.step^[i] d) := by
    rw [Nat.add_comm, Function.iterate_add_apply]
  refine ⟨i + n, ?_, ?_, ?_, ?_, ?_, by omega⟩
  · rw [count_entersAfter_add hmeets.atEntry hpos hquiet, hcount]
  · rwa [EntersAfter, hsplit]
  · intro j hj
    rcases Nat.lt_or_ge i j with hlt | hle
    · obtain ⟨l, rfl⟩ := Nat.exists_eq_add_of_lt hlt
      rw [Nat.add_assoc, Nat.add_comm i, Function.iterate_add_apply]
      exact (hquiet (l + 1) (Nat.succ_pos l) (by omega)).1
    · refine one.running_of_le ?_ hle
      rw [hmeets.eq_atBlock]
      rfl
  · rwa [hsplit]
  · rwa [hsplit]

end Reduced

end FromStart

/-! ## Runs on an input -/

section Run

variable {t : TwoTapeTable} {one : OneTapeTable} {w : List Symbol}

theorem width_twoTapes (w : List Symbol) :
    width (Config.twoTapes w []).tapes = Equivalence.layoutLength w.length := by
  rw [← length_encode_nil, ← cells_keptPair_ofList]
  rfl

theorem width_twoTapes_le (t : TwoTapeTable) (w : List Symbol) (k : Nat) :
    width (t.step^[k] (.twoTapes w [])).tapes ≤
      Equivalence.layoutLength w.length + 2 * (t.step^[k] (.twoTapes w [])).steps := by
  have hrun := width_iterate_step_le t (.twoTapes w []) k
  rw [width_twoTapes] at hrun
  omega

namespace Reduced

/-- No block is entered before the tape is laid out, and then the two machines meet. -/
theorem starts_layout (h : Reduced t one) (hw : ∀ x ∈ w, x ∈ Symbol.inputs) :
    Starts t one (.twoTapes w []) (.oneTape w) (layoutSteps w.length) := by
  obtain ⟨hquiet, hlast⟩ := h.layout hw
  constructor
  · intro j hj
    rcases Nat.eq_zero_or_pos j with rfl | hpos
    · exact not_atEntry_of_inner (x := .setup .start) trivial rfl
    · exact (hquiet j hpos hj).2
  · refine ⟨rfl, t.size_pos, ?_⟩
    rw [hlast]
    rfl

theorem exists_meeting (h : Reduced t one) (hw : ∀ x ∈ w, x ∈ Symbol.inputs) {k : Nat}
    (hk : (t.step^[k] (.twoTapes w [])).halted = none) :
    ∃ i, Nat.count (EntersAfter t one (.oneTape w)) i = k ∧
      Meets t (t.step^[k] (.twoTapes w [])) (one.step^[i] (.oneTape w)) := by
  obtain ⟨i, hcount, hmeets, -⟩ := h.exists_meeting_of_starts (h.starts_layout hw) hk
  exact ⟨i, hcount, hmeets⟩

theorem exists_halt (h : Reduced t one) (hw : ∀ x ∈ w, x ∈ Symbol.inputs) {k : Nat}
    {v : Verdict} (hk : (t.step^[k] (.twoTapes w [])).halted = none)
    (hv : (t.step^[k + 1] (.twoTapes w [])).halted = some v) :
    ∃ n, Nat.count (EntersAfter t one (.oneTape w)) n = k + 1 ∧
      ¬EntersAfter t one (.oneTape w) n ∧
      (∀ j < n, (one.step^[j] (.oneTape w)).halted = none) ∧
      (one.step^[n] (.oneTape w)).halted = some (reducedVerdict t.size v) ∧
      (one.step^[n] (.oneTape w)).tapes.cells.size =
        width (t.step^[k + 1] (.twoTapes w [])).tapes ∧
      n < 2 * Equivalence.layoutLength w.length + lapBound (k + 1)
        (Equivalence.layoutLength w.length + 2 * (t.step^[k + 1] (.twoTapes w [])).steps) := by
  obtain ⟨n, hcount, hentry, hrunning, hn, hcells, hbound⟩ :=
    h.exists_halt_of_starts (h.starts_layout hw) hk hv
  refine ⟨n, hcount, hentry, hrunning, hn, ?_, ?_⟩
  · rw [← Array.length_toList, hcells]
    rfl
  · have hwidth := width_twoTapes_le t w (k + 1)
    have hsteps := t.le_steps_iterate_step hk (Nat.le_add_right k 1)
    have hlaps := lapBound_mono (Nat.le_refl k)
      (Nat.add_le_add_left (Nat.mul_le_mul_left 2 hsteps) (Equivalence.layoutLength w.length))
    have hlast := lapBound_add_one k (Equivalence.layoutLength w.length +
      2 * (t.step^[k + 1] (.twoTapes w [])).steps)
    rw [width_twoTapes] at hbound
    have hlayout : layoutSteps w.length < 2 * Equivalence.layoutLength w.length := by
      rw [layoutSteps, Equivalence.layoutLength]
      omega
    omega

end Reduced

end Run

end TapeReduction.Reduction
