import TapeReduction.Proofs.Run
import TapeReduction.Session

/-!
# Limits of runs

A run without a limit ends with the step that halts the machine, and gives no answer
exactly if there is no such step.  A limit only cuts it short: a run that halts within
its limit is the run without one, and a run that is given up has gone through the
first states of it.  So it does not matter in how many parts a run is made.

The limit is looked at before each step, and finding no rule is not a step.  A machine
may therefore accept with the last step the limit allows, but it has to reject with a
step to spare.
-/

namespace TapeReduction

namespace Table

variable {κ δ σ : Type} [Alphabet κ] [Tapes σ κ δ] {t : Table κ δ} {c : Config σ}

/-! ## Runs without a limit -/

theorem finish_of_halted_step (seen : List Nat) {v : Verdict}
    (h : (t.step c).halted = some v) :
    t.finish seen c = some (⟨seen.reverse, some v⟩, t.step c) := by
  rw [finish]
  simp only [h]

theorem finish_of_running_step (seen : List Nat) (h : (t.step c).halted = none) :
    t.finish seen c = t.finish ((t.step c).state :: seen) (t.step c) := by
  rw [finish]
  simp only [h]

/-- A run ends with the step that halts the machine. -/
theorem finish_of_haltsAfter {n : Nat} {v : Verdict} (h : t.HaltsAfter c n v)
    (seen : List Nat) :
    t.finish seen c = some (⟨seen.reverse ++ t.visited c n, some v⟩, t.step^[n + 1] c) := by
  induction n generalizing c seen with
  | zero =>
    rw [finish_of_halted_step seen h.halted]
    simp [visited]
  | succ n ih =>
    obtain ⟨hstep, hrest⟩ := h.tail
    rw [finish_of_running_step seen hstep, ih hrest, visited_succ]
    simp

/-- A run that ends does so with a step that halts the machine. -/
theorem haltsAfter_of_finish {seen : List Nat} {r : Trace × Config σ}
    (h : t.finish seen c = some r) : ∃ n v, t.HaltsAfter c n v := by
  -- Nothing bounds the run, so the induction is over how its answer came about.
  refine finish.partial_correctness t (fun _ c _ => ∃ n v, t.HaltsAfter c n v) ?_ seen c r h
  intro finish ih seen c r hr
  cases hstep : (t.step c).halted with
  | some v => exact ⟨0, v, runsThrough_zero c, hstep⟩
  | none =>
    simp only [hstep] at hr
    obtain ⟨n, v, hrest⟩ := ih _ _ r hr
    exact ⟨n + 1, v, hrest.of_step hstep⟩

theorem finish_eq_some_iff {trace : Trace} {last : Config σ} :
    t.finish [] c = some (trace, last) ↔
      ∃ n v, t.HaltsAfter c n v ∧ trace = ⟨t.visited c n, some v⟩ ∧
        last = t.step^[n + 1] c := by
  constructor
  · intro h
    obtain ⟨n, v, hhalts⟩ := haltsAfter_of_finish h
    rw [finish_of_haltsAfter hhalts] at h
    obtain ⟨rfl, rfl⟩ := Prod.mk.inj (Option.some.inj h)
    exact ⟨n, v, hhalts, rfl, rfl⟩
  · rintro ⟨n, v, hhalts, rfl, rfl⟩
    exact finish_of_haltsAfter hhalts []

theorem exists_finish_of_haltsWith (hc : c.halted = none) {v : Verdict}
    (h : t.HaltsWith c v) :
    ∃ trace last, t.finish [] c = some (trace, last) ∧ trace.verdict = some v := by
  obtain ⟨n, hn⟩ := h
  obtain ⟨k, -, hk, hlast⟩ := exists_last_step hc hn
  have hhalts : t.HaltsAfter c k v := (haltsAfter_iff hc).mpr ⟨hk, hlast⟩
  exact ⟨_, _, finish_of_haltsAfter hhalts [], rfl⟩

/-- There is no answer exactly if the machine never halts. -/
theorem finish_eq_none_iff (hc : c.halted = none) :
    t.finish [] c = none ↔ t.RunsForever c := by
  constructor
  · intro h
    rcases t.haltsWith_or_runsForever c with ⟨v, hhalts⟩ | hforever
    · obtain ⟨trace, last, hfinish, -⟩ := exists_finish_of_haltsWith hc hhalts
      rw [h] at hfinish
      cases hfinish
    · exact hforever
  · intro h
    apply Option.eq_none_iff_forall_ne_some.mpr
    intro r hr
    obtain ⟨n, v, hhalts⟩ := haltsAfter_of_finish hr
    exact not_runsForever_of_haltsWith ⟨n + 1, hhalts.halted⟩ h

/-! ## Runs with a limit -/

/-- A run that is not given up is the run without a limit. -/
theorem finish_eq_of_drive {seen : List Nat} {fuel : Nat}
    (h : (t.drive seen c fuel).1.verdict ≠ none) :
    t.finish seen c = some (t.drive seen c fuel) := by
  rcases drive_cases (t := t) seen c fuel with ⟨n, v, -, hhalts, heq⟩ | ⟨-, heq⟩
  · rw [heq]
    exact finish_of_haltsAfter hhalts seen
  · rw [heq] at h
    exact absurd rfl h

/-- A run with a limit halts exactly if the run without one halts with few enough steps. -/
theorem verdict_resume_iff_finish (limit : Nat) (hc : c.halted = none) (v : Verdict) :
    (t.resume limit c).1.verdict = some v ↔
      ∃ trace last, t.finish [] c = some (trace, last) ∧
        trace.verdict = some v ∧ last.steps < limit + haltingSteps v := by
  constructor
  · intro h
    obtain ⟨n, hn, hlast, hlt⟩ := (verdict_resume_eq_some_iff limit hc v).mp h
    have hhalts : t.HaltsAfter c n v := (haltsAfter_iff hc).mpr ⟨hn, hlast⟩
    refine ⟨_, _, finish_of_haltsAfter hhalts [], rfl, ?_⟩
    rw [steps_last_step hn hlast]
    omega
  · rintro ⟨trace, last, hfinish, hverdict, hlt⟩
    obtain ⟨n, v', hhalts, rfl, rfl⟩ := finish_eq_some_iff.mp hfinish
    obtain rfl : v' = v := Option.some.inj hverdict
    exact (verdict_resume_iff_steps limit hc v').mpr ⟨n + 1, hhalts.halted, hlt⟩

/-- A run that is given up has made all steps the limit allows. -/
theorem drive_of_undetermined {seen : List Nat} {fuel : Nat}
    (h : (t.drive seen c fuel).1.verdict = none) :
    t.RunsThrough c fuel ∧
      t.drive seen c fuel =
        (⟨seen.reverse ++ t.visited c fuel, none⟩, t.step^[fuel] c) := by
  rcases drive_cases (t := t) seen c fuel with ⟨n, v, -, -, heq⟩ | hgiven
  · rw [heq] at h
    cases h
  · exact hgiven

theorem resume_load_of_undetermined (state : Nat) (tapes : σ) {limit : Nat}
    (h : (t.resume limit (.load state tapes)).1.verdict = none) :
    t.RunsThrough (.load state tapes) limit ∧
      t.resume limit (.load state tapes) =
        (⟨t.visited (.load state tapes) limit, none⟩, t.step^[limit] (.load state tapes)) :=
  drive_of_undetermined h

theorem length_visited (c : Config σ) (n : Nat) : (t.visited c n).length = n := by
  simp [visited]

theorem take_visited (c : Config σ) {m n : Nat} (hle : m ≤ n) :
    (t.visited c n).take m = t.visited c m := by
  rw [visited, ← List.map_take, List.take_range, Nat.min_eq_left hle, visited]

/-- A run that is given up has gone through the first states of the run without a limit. -/
theorem visited_eq_take {trace : Trace} {last : Config σ} {limit : Nat}
    (hrunning : t.RunsThrough c limit)
    (h : t.finish [] c = some (trace, last)) :
    t.visited c limit = trace.states.take limit := by
  obtain ⟨n, v, hhalts, rfl, -⟩ := finish_eq_some_iff.mp h
  have hle : limit ≤ n := by
    by_contra hlt
    have hnone := hrunning (n + 1) (Nat.succ_pos n) (by omega)
    rw [hhalts.halted] at hnone
    cases hnone
  exact (take_visited c hle).symm

/-! ## Runs in parts -/

/-- What is on record already comes first, and makes no difference otherwise. -/
theorem drive_eq_append (seen : List Nat) (c : Config σ) (fuel : Nat) :
    t.drive seen c fuel =
      (⟨seen.reverse ++ (t.drive [] c fuel).1.states, (t.drive [] c fuel).1.verdict⟩,
        (t.drive [] c fuel).2) := by
  induction fuel generalizing seen c with
  | zero => simp [drive]
  | succ fuel ih =>
    cases hstep : (t.step c).halted with
    | some v => simp [drive, hstep]
    | none =>
      simp only [drive, hstep]
      rw [ih ((t.step c).state :: seen), ih [(t.step c).state]]
      simp

/-- A run that is given up can be taken up where it was left. -/
theorem drive_add {seen : List Nat} {n : Nat} (h : (t.drive seen c n).1.verdict = none)
    (m : Nat) :
    t.drive seen c (n + m) =
      t.drive (t.drive seen c n).1.states.reverse (t.drive seen c n).2 m := by
  induction n generalizing seen c with
  | zero => simp [drive]
  | succ n ih =>
    cases hstep : (t.step c).halted with
    | some v =>
      simp only [drive, hstep] at h
      cases h
    | none =>
      rw [Nat.add_right_comm]
      simp only [drive, hstep] at h ⊢
      exact ih h

/-- The second part of a run is given what the first part has left of the limit. -/
theorem resume_of_undetermined {a b : Nat} (hle : a ≤ b)
    (h : (t.resume a c).1.verdict = none) :
    t.resume b c =
      (⟨(t.resume a c).1.states ++ (t.resume b (t.resume a c).2).1.states,
        (t.resume b (t.resume a c).2).1.verdict⟩, (t.resume b (t.resume a c).2).2) := by
  obtain ⟨hrunning, hfirst⟩ := drive_of_undetermined h
  have hsteps : (t.resume a c).2.steps = c.steps + (a - c.steps) := by
    rw [resume, hfirst]
    exact hrunning.steps_eq
  have hfuel : b - c.steps = (a - c.steps) + (b - (t.resume a c).2.steps) := by
    rw [hsteps]
    omega
  calc
    t.resume b c = t.drive [] c ((a - c.steps) + (b - (t.resume a c).2.steps)) := by
      rw [resume, hfuel]
    _ = t.drive (t.resume a c).1.states.reverse (t.resume a c).2
          (b - (t.resume a c).2.steps) := drive_add h _
    _ = _ := by
      rw [drive_eq_append, List.reverse_reverse]
      rfl

end Table

/-- With a limit, a machine that was just loaded accepts exactly if it accepts without one
with at most so many steps, and rejects exactly if it rejects without one with fewer steps;
the record and the machine are then those of the run without a limit.  Otherwise it is given
up after the first states of that run, as many as the limit says.  A run that was given up
and is taken up again with a higher limit has the record and leaves the machine of one run
with that limit.  A machine that has halted does not change, and answers how it halted. -/
theorem limits_only_cut_runs_short
    {κ δ σ γ : Type} [Alphabet κ] [Tapes σ κ δ] [Loadable σ γ] (t : Table κ δ) :
    (∀ (state : Nat) (tapes : σ) (limit : Nat),
      let start : Config σ := .load state tapes
      let run := t.resume limit start
      (∀ a, run.1.verdict = some (.accept a) ↔
        ∃ trace last, t.proceed none start = some (trace, last) ∧
          trace.verdict = some (.accept a) ∧ last.steps ≤ limit) ∧
      (run.1.verdict = some .reject ↔
        ∃ trace last, t.proceed none start = some (trace, last) ∧
          trace.verdict = some .reject ∧ last.steps < limit) ∧
      (run.1.verdict ≠ none → t.proceed none start = some run) ∧
      (run.1.verdict = none →
        run.1.states.length = limit ∧ run.2.steps = limit ∧
        run.1.states = t.visited start limit ∧
        ∀ trace last, t.proceed none start = some (trace, last) →
          run.1.states = trace.states.take limit) ∧
      (t.proceed none start = none ↔ t.RunsForever start)) ∧
    (∀ (c : Config σ) (a b : Nat), a ≤ b → (t.resume a c).1.verdict = none →
      let first := t.resume a c
      let second := t.resume b first.2
      t.resume b c =
        (⟨first.1.states ++ second.1.states, second.1.verdict⟩, second.2)) ∧
    ∀ (c : Config σ) (v : Verdict), c.halted = some v →
      t.step c = c ∧ t.perform c (.step : Command γ) = some (.stepped (some v), c) := by
  refine ⟨?_, ?_, ?_⟩
  · intro state tapes limit start run
    refine ⟨?_, ?_, ?_, ?_, ?_⟩
    · intro a
      have haccept := Table.verdict_resume_iff_finish (t := t) (c := start) limit rfl (.accept a)
      simp only [Table.haltingSteps, Nat.lt_succ_iff] at haccept
      exact haccept
    · exact Table.verdict_resume_iff_finish limit rfl .reject
    · intro h
      exact Table.finish_eq_of_drive h
    · intro h
      obtain ⟨hrunning, heq⟩ := Table.resume_load_of_undetermined state tapes h
      have hstates : run.1.states = t.visited start limit := by
        simp only [run, start, heq]
      have hsteps : run.2.steps = limit := by
        simp only [run, start, heq]
        exact hrunning.steps_eq.trans (Nat.zero_add limit)
      rw [hstates]
      refine ⟨Table.length_visited start limit, hsteps, rfl, ?_⟩
      intro trace last hfinish
      exact Table.visited_eq_take hrunning hfinish
    · exact Table.finish_eq_none_iff rfl
  · intro c a b hle h
    exact Table.resume_of_undetermined hle h
  · intro c v hc
    have hstep := t.step_of_halted (Option.isSome_of_eq_some hc)
    refine ⟨hstep, ?_⟩
    simp only [Table.perform, hstep, hc]

/-- Accepts the inputs that hold nothing but ones. -/
def onlyOnes : OneTapeTable where
  rows := #[fun
      | .plain .one => some ⟨0, .plain .one, .right⟩
      | .plain .blank => some ⟨1, .blank, .left⟩
      | _ => none, fun _ => none]
  size_pos := by decide
  closed := by
    intro state key rule hrule
    match state with
    | 0 =>
      rcases key with s | s | _
      · cases s with
        | blank =>
          rw [← Option.some.inj hrule]
          decide
        | zero => cases hrule
        | one =>
          rw [← Option.some.inj hrule]
          decide
      · cases hrule
      · cases hrule
    | 1 => cases hrule
    | state + 2 => cases hrule
  accepting_rule? _ := rfl

/-- Two ones are accepted with the third step, which a limit of three allows.  A zero behind
a one is rejected after one step, which a limit of one does not find out and a limit of two
does, also when it is given afterwards. -/
theorem limits_only_cut_runs_short_onlyOnes :
    (onlyOnes.resume 3 (.oneTape [.one, .one])).1 = ⟨[0, 0], some (.accept 1)⟩ ∧
    onlyOnes.proceed none (.oneTape [.one, .one]) =
      some (onlyOnes.resume 3 (.oneTape [.one, .one])) ∧
    (onlyOnes.resume 1 (.oneTape [.one, .zero])).1 = ⟨[0], none⟩ ∧
    (onlyOnes.resume 1 (.oneTape [.one, .zero])).2.steps = 1 ∧
    (onlyOnes.resume 2 (onlyOnes.resume 1 (.oneTape [.one, .zero])).2).1 = ⟨[], some .reject⟩ ∧
    (onlyOnes.resume 2 (.oneTape [.one, .zero])).1 = ⟨[0] ++ [], some .reject⟩ ∧
    onlyOnes.step (onlyOnes.resume 2 (.oneTape [.one, .zero])).2 =
      (onlyOnes.resume 2 (.oneTape [.one, .zero])).2 := by
  obtain ⟨hloaded, hparts, hhalted⟩ := limits_only_cut_runs_short (σ := OneTape) onlyOnes
  obtain ⟨-, -, hfinish, -, -⟩ := hloaded 0 (.ofList [.plain .one, .plain .one]) 3
  obtain ⟨-, -, -, hgiven, -⟩ := hloaded 0 (.ofList [.plain .one, .plain .zero]) 1
  have hsplit := hparts (.oneTape [.one, .zero]) 1 2 (by decide) rfl
  refine ⟨rfl, hfinish (by decide), rfl, (hgiven rfl).2.1, rfl, ?_, ?_⟩
  · rw [hsplit]
    rfl
  · exact (hhalted _ .reject rfl).1

end TapeReduction
