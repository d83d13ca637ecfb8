import Mathlib.Logic.Function.Iterate
import TapeReduction.Machine

/-!
# Runs

A run is the iteration of the step.  Up to where it halts every step counts, and
from there on nothing changes, so a machine halts in at most one way.  The last
parts say what the record of a run with a limit holds and when the limit is too
low.
-/

namespace TapeReduction.Table

variable {κ δ σ : Type} [Alphabet κ] [Tapes σ κ δ] (t : Table κ δ) {c : Config σ}

/-- The machine halts with a verdict. -/
def HaltsWith (c : Config σ) (verdict : Verdict) : Prop :=
  ∃ n, (t.step^[n] c).halted = some verdict

/-- The machine never halts. -/
def RunsForever (c : Config σ) : Prop :=
  ∀ n, (t.step^[n] c).halted = none

/-! ## One step -/

theorem step_of_rule?_eq_some (hc : c.halted = none) {rule : Rule κ δ}
    (hrule : t.rule? c.state (Tapes.scan (Tapes.settle c.tapes)) = some rule) :
    t.step c = ⟨rule.target, Tapes.act rule.write rule.move (Tapes.settle c.tapes), c.steps + 1,
      t.verdictAt rule.target⟩ := by
  obtain ⟨state, tapes, steps, halted⟩ := c
  subst hc
  simp only [step, hrule]

theorem step_of_rule?_eq_none (hc : c.halted = none)
    (hrule : t.rule? c.state (Tapes.scan (Tapes.settle c.tapes)) = none) :
    t.step c = ⟨c.state, Tapes.settle c.tapes, c.steps, some .reject⟩ := by
  obtain ⟨state, tapes, steps, halted⟩ := c
  subst hc
  simp only [step, hrule]

/-- A step counts at most once. -/
theorem steps_step_bounds (c : Config σ) :
    c.steps ≤ (t.step c).steps ∧ (t.step c).steps ≤ c.steps + 1 := by
  by_cases hc : c.halted = none
  · cases hrule : t.rule? c.state (Tapes.scan (Tapes.settle c.tapes)) with
    | none => simp [t.step_of_rule?_eq_none hc hrule]
    | some rule => simp [t.step_of_rule?_eq_some hc hrule]
  · rw [t.step_of_halted (Option.isSome_iff_ne_none.mpr hc)]
    omega

/-- A machine accepts in the accepting state of its table only. -/
theorem halted_step_cases (hc : c.halted = none) {v : Verdict}
    (h : (t.step c).halted = some v) : v = .accept t.accepting ∨ v = .reject := by
  cases hrule : t.rule? c.state (Tapes.scan (Tapes.settle c.tapes)) with
  | none =>
    rw [t.step_of_rule?_eq_none hc hrule] at h
    exact .inr (Option.some.inj h).symm
  | some rule =>
    rw [t.step_of_rule?_eq_some hc hrule] at h
    obtain ⟨htarget, hv⟩ := Option.ite_none_right_eq_some.mp h
    rw [← Option.some.inj hv, htarget]
    exact .inl rfl

/-! ## Many steps -/

/-- From where it has halted on, a run stays as it is. -/
theorem iterate_step_eq_of_le {n m : Nat} (h : (t.step^[n] c).halted.isSome) (hle : n ≤ m) :
    t.step^[m] c = t.step^[n] c := by
  obtain ⟨k, rfl⟩ := Nat.exists_eq_add_of_le hle
  rw [Nat.add_comm, Function.iterate_add_apply]
  exact Function.iterate_fixed (t.step_of_halted h) k

theorem running_of_le {n m : Nat} (h : (t.step^[m] c).halted = none) (hle : n ≤ m) :
    (t.step^[n] c).halted = none := by
  by_contra hn
  have hsome := Option.isSome_iff_ne_none.mpr hn
  rw [t.iterate_step_eq_of_le hsome hle] at h
  exact hn h

/-- As long as the machine runs, every step counts. -/
theorem steps_iterate_step {n : Nat} (h : (t.step^[n] c).halted = none) :
    (t.step^[n] c).steps = c.steps + n := by
  induction n with
  | zero => rfl
  | succ n ih =>
    have hprev := ih (t.running_of_le h (Nat.le_succ n))
    rw [Function.iterate_succ_apply'] at h ⊢
    rw [t.steps_step_of_running h, hprev, Nat.add_assoc]

theorem steps_iterate_step_le (c : Config σ) (n : Nat) :
    (t.step^[n] c).steps ≤ c.steps + n := by
  induction n with
  | zero => exact Nat.le_refl _
  | succ n ih =>
    have hstep := (t.steps_step_bounds (t.step^[n] c)).2
    rw [Function.iterate_succ_apply']
    omega

theorem steps_iterate_step_mono (c : Config σ) {n m : Nat} (hle : n ≤ m) :
    (t.step^[n] c).steps ≤ (t.step^[m] c).steps := by
  induction hle with
  | refl => exact Nat.le_refl _
  | @step m _ ih =>
    have hstep := (t.steps_step_bounds (t.step^[m] c)).1
    rw [Function.iterate_succ_apply']
    omega

theorem le_steps_iterate_step {n m : Nat} (h : (t.step^[n] c).halted = none) (hle : n ≤ m) :
    n ≤ (t.step^[m] c).steps := by
  have hmono := t.steps_iterate_step_mono c hle
  rw [t.steps_iterate_step h] at hmono
  exact Nat.le_trans (Nat.le_add_left n c.steps) hmono

/-! ## How a run ends -/

variable {t}

theorem HaltsWith.unique {v v' : Verdict} (h : t.HaltsWith c v) (h' : t.HaltsWith c v') :
    v = v' := by
  obtain ⟨n, hn⟩ := h
  obtain ⟨m, hm⟩ := h'
  have hlast := t.iterate_step_eq_of_le (Option.isSome_of_eq_some hn) (Nat.le_max_left n m)
  rw [t.iterate_step_eq_of_le (Option.isSome_of_eq_some hm) (Nat.le_max_right n m)] at hlast
  rw [hlast, hn] at hm
  exact Option.some.inj hm

theorem not_runsForever_of_haltsWith {v : Verdict} (h : t.HaltsWith c v) :
    ¬t.RunsForever c := by
  intro hforever
  obtain ⟨n, hn⟩ := h
  rw [hforever n] at hn
  cases hn

variable (t) in
theorem haltsWith_or_runsForever (c : Config σ) :
    (∃ v, t.HaltsWith c v) ∨ t.RunsForever c := by
  by_cases hforever : t.RunsForever c
  · exact .inr hforever
  · obtain ⟨n, hn⟩ := not_forall.mp hforever
    obtain ⟨v, hv⟩ := Option.ne_none_iff_exists'.mp hn
    exact .inl ⟨v, n, hv⟩

/-- A machine that is running and halts later makes its last step somewhere. -/
theorem exists_last_step (hc : c.halted = none) {n : Nat} {v : Verdict}
    (h : (t.step^[n] c).halted = some v) :
    ∃ k < n, (t.step^[k] c).halted = none ∧ (t.step^[k + 1] c).halted = some v := by
  induction n with
  | zero =>
    rw [Function.iterate_zero_apply, hc] at h
    cases h
  | succ n ih =>
    cases hn : (t.step^[n] c).halted with
    | none => exact ⟨n, Nat.lt_succ_self n, hn, h⟩
    | some v' =>
      have heq := t.iterate_step_eq_of_le (Option.isSome_of_eq_some hn) (Nat.le_succ n)
      rw [heq] at h
      obtain ⟨k, hk, hlast⟩ := ih h
      exact ⟨k, Nat.lt_succ_of_lt hk, hlast⟩

theorem haltsWith_cases (hc : c.halted = none) {v : Verdict} (h : t.HaltsWith c v) :
    v = .accept t.accepting ∨ v = .reject := by
  obtain ⟨n, hn⟩ := h
  obtain ⟨k, -, hk, hlast⟩ := exists_last_step hc hn
  rw [Function.iterate_succ_apply'] at hlast
  exact t.halted_step_cases hk hlast

/-! ## Runs up to their last step -/

/-- The next `n` steps leave the machine running. -/
def RunsThrough (t : Table κ δ) (c : Config σ) (n : Nat) : Prop :=
  ∀ i, 0 < i → i ≤ n → (t.step^[i] c).halted = none

theorem runsThrough_zero (c : Config σ) : t.RunsThrough c 0 := by
  intro i hpos hle
  omega

theorem RunsThrough.of_step {n : Nat} (h : (t.step c).halted = none)
    (hrest : t.RunsThrough (t.step c) n) : t.RunsThrough c (n + 1) := by
  intro i hpos hle
  obtain ⟨i, rfl⟩ := Nat.exists_eq_succ_of_ne_zero (Nat.ne_of_gt hpos)
  rw [Function.iterate_succ_apply]
  rcases Nat.eq_zero_or_pos i with rfl | hi
  · exact h
  · exact hrest i hi (Nat.le_of_succ_le_succ hle)

/-- Where the machine itself is running, it is so after all steps on the way. -/
theorem runsThrough_iff (hc : c.halted = none) {n : Nat} :
    t.RunsThrough c n ↔ (t.step^[n] c).halted = none := by
  constructor
  · intro h
    rcases Nat.eq_zero_or_pos n with rfl | hpos
    · exact hc
    · exact h n hpos (Nat.le_refl n)
  · intro h i _ hle
    exact t.running_of_le h hle

theorem RunsThrough.steps_eq {n : Nat} (h : t.RunsThrough c n) :
    (t.step^[n] c).steps = c.steps + n := by
  rcases Nat.eq_zero_or_pos n with rfl | hpos
  · rfl
  · exact t.steps_iterate_step (h n hpos (Nat.le_refl n))

/-- The machine runs through `n` steps, and the next one halts it. -/
structure HaltsAfter (t : Table κ δ) (c : Config σ) (n : Nat) (v : Verdict) : Prop where
  running : t.RunsThrough c n
  halted : (t.step^[n + 1] c).halted = some v

theorem HaltsAfter.of_step {n : Nat} {v : Verdict} (h : (t.step c).halted = none)
    (hrest : t.HaltsAfter (t.step c) n v) : t.HaltsAfter c (n + 1) v :=
  ⟨hrest.running.of_step h, hrest.halted⟩

theorem HaltsAfter.tail {n : Nat} {v : Verdict} (h : t.HaltsAfter c (n + 1) v) :
    (t.step c).halted = none ∧ t.HaltsAfter (t.step c) n v := by
  refine ⟨h.running 1 Nat.one_pos (Nat.le_add_left 1 n), ?_, h.halted⟩
  intro i _ hle
  exact h.running (i + 1) (Nat.succ_pos i) (Nat.succ_le_succ hle)

theorem haltsAfter_iff (hc : c.halted = none) {n : Nat} {v : Verdict} :
    t.HaltsAfter c n v ↔
      (t.step^[n] c).halted = none ∧ (t.step^[n + 1] c).halted = some v := by
  rw [← runsThrough_iff hc]
  exact ⟨fun h => ⟨h.running, h.halted⟩, fun h => ⟨h.1, h.2⟩⟩

/-! ## The record of a run -/

/-- The states after each of the first `n` steps. -/
def visited (t : Table κ δ) (c : Config σ) (n : Nat) : List Nat :=
  (List.range n).map fun i => (t.step^[i + 1] c).state

theorem visited_succ (c : Config σ) (n : Nat) :
    t.visited c (n + 1) = (t.step c).state :: t.visited (t.step c) n := by
  simp [visited, List.range_succ_eq_map]

/-- A run with a limit either halts within it, with the states before the last step on
record, or is given up. -/
theorem drive_cases (seen : List Nat) (c : Config σ) (fuel : Nat) :
    (∃ n v, n < fuel ∧ t.HaltsAfter c n v ∧
      t.drive seen c fuel = (⟨seen.reverse ++ t.visited c n, some v⟩, t.step^[n + 1] c)) ∨
    (t.RunsThrough c fuel ∧
      t.drive seen c fuel = (⟨seen.reverse ++ t.visited c fuel, none⟩, t.step^[fuel] c)) := by
  induction fuel generalizing seen c with
  | zero =>
    refine .inr ⟨runsThrough_zero c, ?_⟩
    simp [drive, visited]
  | succ fuel ih =>
    cases hstep : (t.step c).halted with
    | some v =>
      refine .inl ⟨0, v, Nat.succ_pos fuel, ⟨runsThrough_zero c, hstep⟩, ?_⟩
      simp [drive, hstep, visited]
    | none =>
      have hdrive : t.drive seen c (fuel + 1) =
          t.drive ((t.step c).state :: seen) (t.step c) fuel := by
        simp only [drive, hstep]
      rw [hdrive]
      rcases ih ((t.step c).state :: seen) (t.step c) with
        ⟨n, v, hlt, hhalts, heq⟩ | ⟨hrunning, heq⟩
      · refine .inl ⟨n + 1, v, Nat.succ_lt_succ hlt, hhalts.of_step hstep, ?_⟩
        rw [heq, visited_succ]
        simp
      · refine .inr ⟨hrunning.of_step hstep, ?_⟩
        rw [heq, visited_succ]
        simp

theorem resume_cases (limit : Nat) (hc : c.halted = none) :
    (∃ n v, c.steps + n < limit ∧ (t.step^[n] c).halted = none ∧
      (t.step^[n + 1] c).halted = some v ∧
      t.resume limit c = (⟨t.visited c n, some v⟩, t.step^[n + 1] c)) ∨
    ((∀ n, c.steps + n ≤ limit → (t.step^[n] c).halted = none) ∧
      (t.resume limit c).1.verdict = none) := by
  rcases drive_cases (t := t) [] c (limit - c.steps) with
    ⟨n, v, hlt, hhalts, heq⟩ | ⟨hrunning, heq⟩
  · obtain ⟨hn, hv⟩ := (haltsAfter_iff hc).mp hhalts
    refine .inl ⟨n, v, by omega, hn, hv, ?_⟩
    rw [resume, heq]
    rfl
  · refine .inr ⟨?_, ?_⟩
    · intro n hle
      exact t.running_of_le ((runsThrough_iff hc).mp hrunning) (by omega)
    · rw [resume, heq]

/-- The record of a run that halts holds the states before its last step. -/
theorem exists_of_resume_determined {limit : Nat} (hc : c.halted = none)
    (h : (t.resume limit c).1.undetermined = false) :
    ∃ n v, (t.step^[n] c).halted = none ∧ (t.step^[n + 1] c).halted = some v ∧
      (t.resume limit c).1 = ⟨t.visited c n, some v⟩ := by
  rcases resume_cases (t := t) limit hc with ⟨n, v, -, hn, hv, heq⟩ | ⟨-, hverdict⟩
  · exact ⟨n, v, hn, hv, by rw [heq]⟩
  · rw [Trace.undetermined, hverdict] at h
    cases h

/-! ## The limit of a run -/

/-- A run with a limit halts exactly if the run without one halts, with fewer steps before
the last one. -/
theorem verdict_resume_eq_some_iff (limit : Nat) (hc : c.halted = none) (v : Verdict) :
    (t.resume limit c).1.verdict = some v ↔ ∃ k, (t.step^[k] c).halted = none ∧
      (t.step^[k + 1] c).halted = some v ∧ c.steps + k < limit := by
  rcases resume_cases (t := t) limit hc with ⟨n, v', hlt, hn, hv, heq⟩ | ⟨hrunning, hverdict⟩
  · rw [heq]
    constructor
    · intro h
      rw [← Option.some.inj h]
      exact ⟨n, hn, hv, hlt⟩
    · rintro ⟨k, -, hk, -⟩
      exact congrArg some (HaltsWith.unique ⟨_, hv⟩ ⟨_, hk⟩)
  · rw [hverdict]
    constructor
    · intro h
      cases h
    · rintro ⟨k, -, hk, hlt⟩
      rw [hrunning (k + 1) hlt] at hk
      cases hk

/-- A run that halts within its limit has the verdict on record. -/
theorem verdict_resume {limit n : Nat} {v : Verdict} (hc : c.halted = none)
    (hle : c.steps + n ≤ limit) (h : (t.step^[n] c).halted = some v) :
    (t.resume limit c).1.verdict = some v := by
  obtain ⟨k, hlt, hk, hlast⟩ := exists_last_step hc h
  exact (verdict_resume_eq_some_iff limit hc v).mpr ⟨k, hk, hlast, by omega⟩

/-- A run that halts within its limit is not given up. -/
theorem resume_determined {limit n : Nat} (hc : c.halted = none) (hle : c.steps + n ≤ limit)
    (h : (t.step^[n] c).halted.isSome) : (t.resume limit c).1.undetermined = false := by
  obtain ⟨v, hv⟩ := Option.isSome_iff_exists.mp h
  rw [Trace.undetermined, verdict_resume hc hle hv]
  rfl

/-- What the step that halts a machine adds to the number of its steps: finding no rule is
not counted. -/
def haltingSteps : Verdict → Nat
  | .accept _ => 1
  | .reject => 0

theorem steps_step_of_halting {v : Verdict} (hc : c.halted = none)
    (h : (t.step c).halted = some v) : (t.step c).steps = c.steps + haltingSteps v := by
  cases hrule : t.rule? c.state (Tapes.scan (Tapes.settle c.tapes)) with
  | none =>
    rw [t.step_of_rule?_eq_none hc hrule] at h ⊢
    rw [← Option.some.inj h]
    rfl
  | some rule =>
    rw [t.step_of_rule?_eq_some hc hrule] at h ⊢
    obtain ⟨-, hverdict⟩ := Option.ite_none_right_eq_some.mp h
    rw [← Option.some.inj hverdict]
    rfl

theorem steps_last_step {n : Nat} {v : Verdict} (hn : (t.step^[n] c).halted = none)
    (hv : (t.step^[n + 1] c).halted = some v) :
    (t.step^[n + 1] c).steps = c.steps + n + haltingSteps v := by
  rw [Function.iterate_succ_apply'] at hv ⊢
  rw [steps_step_of_halting hn hv, t.steps_iterate_step hn]

/-- A machine that halts has a verdict on record if the steps it has made then, less the one
that halts it if that counts, are fewer than the limit. -/
theorem verdict_resume_iff_steps (limit : Nat) (hc : c.halted = none) (v : Verdict) :
    (t.resume limit c).1.verdict = some v ↔
      ∃ n, (t.step^[n] c).halted = some v ∧
        (t.step^[n] c).steps < limit + haltingSteps v := by
  rw [verdict_resume_eq_some_iff limit hc]
  constructor
  · rintro ⟨k, hk, hlast, hlt⟩
    refine ⟨k + 1, hlast, ?_⟩
    rw [steps_last_step hk hlast]
    omega
  · rintro ⟨n, hn, hlt⟩
    obtain ⟨k, hkn, hk, hlast⟩ := exists_last_step hc hn
    rw [t.iterate_step_eq_of_le (Option.isSome_of_eq_some hlast) hkn,
      steps_last_step hk hlast] at hlt
    exact ⟨k, hk, hlast, by omega⟩

/-- The machine accepts with at most a number of steps made. -/
def AcceptsWithin (t : Table κ δ) (limit : Nat) (c : Config σ) : Prop :=
  ∃ n, (t.step^[n] c).halted = some (.accept t.accepting) ∧ (t.step^[n] c).steps ≤ limit

/-- The machine rejects with fewer than a number of steps made. -/
def RejectsBefore (t : Table κ δ) (limit : Nat) (c : Config σ) : Prop :=
  ∃ n, (t.step^[n] c).halted = some .reject ∧ (t.step^[n] c).steps < limit

/-- A run is given up exactly if it neither accepts with its last step within the limit nor
rejects with a step to spare. -/
theorem undetermined_resume_iff (limit : Nat) (hc : c.halted = none) :
    (t.resume limit c).1.undetermined = true ↔
      ¬t.AcceptsWithin limit c ∧ ¬t.RejectsBefore limit c := by
  have haccept : t.AcceptsWithin limit c ↔
      (t.resume limit c).1.verdict = some (.accept t.accepting) := by
    rw [verdict_resume_iff_steps limit hc]
    simp only [AcceptsWithin, haltingSteps, Nat.lt_succ_iff]
  have hreject : t.RejectsBefore limit c ↔ (t.resume limit c).1.verdict = some .reject :=
    (verdict_resume_iff_steps limit hc .reject).symm
  rw [haccept, hreject, Trace.undetermined, decide_eq_true_iff]
  constructor
  · intro h
    simp [h]
  · rintro ⟨hnotAccept, hnotReject⟩
    by_contra hsome
    obtain ⟨v, hv⟩ := Option.ne_none_iff_exists'.mp hsome
    obtain ⟨k, -, hlast, -⟩ := (verdict_resume_eq_some_iff limit hc v).mp hv
    -- There are no other ways to halt.
    rcases haltsWith_cases hc ⟨k + 1, hlast⟩ with rfl | rfl
    · exact hnotAccept hv
    · exact hnotReject hv

end TapeReduction.Table
