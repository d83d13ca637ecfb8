import Mathlib.Data.List.Chain
import TapeReduction.Proofs.Reachability
import TapeReduction.Proofs.Resumption

/-!
# Runs are paths

Whatever is on its tapes, a machine goes from state to state along the rules of
its table.  So the states on the record of a run are a path from where the run
started, and a run from state 0 stays among the reachable states.  The last state
of the table is never on record: a machine that goes there has accepted.
-/

namespace TapeReduction

namespace Table

variable {κ δ σ : Type} [Alphabet κ] [Tapes σ κ δ] {t : Table κ δ} {c : Config σ}

/-! ## One step -/

/-- A step that finds a rule goes along it. -/
theorem leads_step {rule : Rule κ δ} (hc : c.halted = none)
    (hrule : t.rule? c.state (Tapes.scan (Tapes.settle c.tapes)) = some rule) :
    t.Leads c.state (t.step c).state := by
  refine ⟨_, rule, hrule, ?_⟩
  rw [t.step_of_rule?_eq_some hc hrule]

/-- A machine that goes on running has found a rule, and has not gone to the last state. -/
theorem leads_step_of_running (h : (t.step c).halted = none) :
    t.Leads c.state (t.step c).state ∧ (t.step c).state < t.size - 1 := by
  have hc : c.halted = none := t.running_of_le (n := 0) (m := 1) h (Nat.zero_le 1)
  cases hrule : t.rule? c.state (Tapes.scan (Tapes.settle c.tapes)) with
  | none =>
    rw [t.step_of_rule?_eq_none hc hrule] at h
    cases h
  | some rule =>
    have hlead := leads_step hc hrule
    refine ⟨hlead, ?_⟩
    have hlt := hlead.lt_size
    rw [t.step_of_rule?_eq_some hc hrule] at h hlt ⊢
    have hne : rule.target ≠ t.accepting := by
      intro htarget
      rw [verdictAt, if_pos htarget] at h
      cases h
    exact Nat.lt_of_le_of_ne (Nat.le_sub_one_of_lt hlt) hne

/-- A machine that accepts has gone to the last state. -/
theorem leads_of_accepts {a : Nat} (hc : c.halted = none)
    (h : (t.step c).halted = some (.accept a)) : a = t.size - 1 ∧ t.Leads c.state a := by
  cases hrule : t.rule? c.state (Tapes.scan (Tapes.settle c.tapes)) with
  | none =>
    rw [t.step_of_rule?_eq_none hc hrule] at h
    cases h
  | some rule =>
    have hlead := leads_step hc hrule
    rw [t.step_of_rule?_eq_some hc hrule] at h hlead
    obtain ⟨htarget, hverdict⟩ := Option.ite_none_right_eq_some.mp h
    obtain rfl : rule.target = a := Verdict.accept.inj (Option.some.inj hverdict)
    exact ⟨htarget, hlead⟩

/-- Without a rule, or halted, a machine stays in its state. -/
theorem connects_step (c : Config σ) : t.Connects c.state (t.step c).state := by
  by_cases hc : c.halted = none
  · cases hrule : t.rule? c.state (Tapes.scan (Tapes.settle c.tapes)) with
    | none =>
      rw [t.step_of_rule?_eq_none hc hrule]
      exact .refl
    | some rule => exact .single (leads_step hc hrule)
  · rw [t.step_of_halted (Option.isSome_iff_ne_none.mpr hc)]
    exact .refl

/-! ## Many steps -/

theorem connects_iterate_step (c : Config σ) (n : Nat) :
    t.Connects c.state (t.step^[n] c).state := by
  induction n with
  | zero => exact .refl
  | succ n ih =>
    rw [Function.iterate_succ_apply']
    exact ih.trans (connects_step _)

/-- As long as a machine runs, each state it goes through is a target of the one before. -/
theorem isChain_visited {n : Nat} (h : (t.step^[n] c).halted = none) :
    (c.state :: t.visited c n).IsChain t.Leads := by
  induction n generalizing c with
  | zero => exact List.isChain_singleton _
  | succ n ih =>
    have hstep : (t.step c).halted = none := t.running_of_le (n := 1) h (Nat.succ_pos n)
    rw [visited_succ, List.isChain_cons_cons]
    exact ⟨(leads_step_of_running hstep).1, ih h⟩

theorem getLast_visited (c : Config σ) (n : Nat) :
    (c.state :: t.visited c n).getLast (List.cons_ne_nil _ _) = (t.step^[n] c).state := by
  cases n with
  | zero => rfl
  | succ n =>
    rw [List.getLast_cons (by simp [visited])]
    simp [visited]

theorem exists_of_mem_visited {n s : Nat} (h : (t.step^[n] c).halted = none)
    (hs : s ∈ t.visited c n) : s < t.size - 1 ∧ t.Connects c.state s := by
  obtain ⟨i, hi, rfl⟩ := List.mem_map.mp hs
  refine ⟨?_, connects_iterate_step c (i + 1)⟩
  have hrunning := t.running_of_le h (Nat.succ_le_of_lt (List.mem_range.mp hi))
  rw [Nat.succ_eq_add_one, Function.iterate_succ_apply'] at hrunning
  rw [Function.iterate_succ_apply']
  exact (leads_step_of_running hrunning).2

/-! ## Records -/

/-- The record of a run from state 0 follows the rules of the table. -/
structure FollowsRules (t : Table κ δ) (trace : Trace) : Prop where
  /-- Each state is a target of the one before, the first one a target of state 0. -/
  isChain : (0 :: trace.states).IsChain t.Leads
  lt : ∀ s ∈ trace.states, s < t.size - 1
  reachable : ∀ s ∈ trace.states, s ∈ t.reachable ∧ s ∉ t.unreachable
  /-- A run that accepts goes to the last state of the table from where it was. -/
  accept : ∀ a, trace.verdict = some (.accept a) →
    a = t.size - 1 ∧ a ∈ t.reachable ∧
      t.Leads ((0 :: trace.states).getLast (List.cons_ne_nil _ _)) a

/-- A record that holds the states of a run up to a step at which the machine was running,
and no verdict but that of the next step, follows the rules. -/
theorem followsRules_of_visited {trace : Trace} {n : Nat} (hstate : c.state = 0)
    (hn : (t.step^[n] c).halted = none) (hstates : trace.states = t.visited c n)
    (hverdict : ∀ v, trace.verdict = some v → (t.step^[n + 1] c).halted = some v) :
    t.FollowsRules trace := by
  have hlast := getLast_visited (t := t) c n
  refine ⟨?_, ?_, ?_, ?_⟩
  · rw [hstates, ← hstate]
    exact isChain_visited hn
  · rw [hstates]
    intro s hs
    exact (exists_of_mem_visited hn hs).1
  · rw [hstates]
    intro s hs
    have hpath := (exists_of_mem_visited hn hs).2
    rw [hstate] at hpath
    refine ⟨mem_reachable_iff.mpr hpath, ?_⟩
    intro hunreachable
    exact (mem_unreachable_iff.mp hunreachable).2 hpath
  · intro a ha
    have hhalted := hverdict _ ha
    rw [Function.iterate_succ_apply'] at hhalted
    obtain ⟨hsize, hlead⟩ := leads_of_accepts hn hhalted
    have hpath := connects_iterate_step (t := t) c n
    simp only [hstate] at hpath hlast
    refine ⟨hsize, mem_reachable_iff.mpr (hpath.tail hlead), ?_⟩
    simp only [hstates, hlast]
    exact hlead

/-- The record of a run with a limit holds the states up to a step at which the machine was
running, and the verdict of the next step if the limit allows it. -/
theorem exists_visited_of_resume (limit : Nat) (hc : c.halted = none) :
    ∃ n, (t.step^[n] c).halted = none ∧ (t.resume limit c).1.states = t.visited c n ∧
      ∀ v, (t.resume limit c).1.verdict = some v → (t.step^[n + 1] c).halted = some v := by
  rcases drive_cases (t := t) [] c (limit - c.steps) with
    ⟨n, v, -, hhalts, heq⟩ | ⟨hrunning, heq⟩
  · refine ⟨n, (runsThrough_iff hc).mp hhalts.running, ?_, ?_⟩
    · rw [resume, heq]
      rfl
    · intro v' hv'
      rw [resume, heq] at hv'
      rw [hhalts.halted, ← Option.some.inj hv']
  · refine ⟨_, (runsThrough_iff hc).mp hrunning, ?_, ?_⟩
    · rw [resume, heq]
      rfl
    · intro v hv
      rw [resume, heq] at hv
      cases hv

theorem followsRules_resume (tapes : σ) (limit : Nat) :
    t.FollowsRules (t.resume limit (.load 0 tapes)).1 := by
  obtain ⟨n, hn, hstates, hverdict⟩ :=
    exists_visited_of_resume (t := t) (c := .load 0 tapes) limit rfl
  exact followsRules_of_visited rfl hn hstates hverdict

theorem followsRules_finish {tapes : σ} {trace : Trace} {last : Config σ}
    (h : t.finish [] (.load 0 tapes) = some (trace, last)) : t.FollowsRules trace := by
  obtain ⟨n, v, hhalts, rfl, -⟩ := finish_eq_some_iff.mp h
  refine followsRules_of_visited rfl ((runsThrough_iff rfl).mp hhalts.running) rfl ?_
  intro v' hv'
  rw [hhalts.halted, ← Option.some.inj hv']

end Table

/-- On every input, the record of a run follows the rules of the table: with any limit, and
without one whenever there is a record.  There is one if the machine halts, with the verdict
it halts with.  This holds for machines of one tape and of two. -/
theorem records_follow_rules :
    (∀ (t : OneTapeTable) (input : List Symbol),
      (∀ limit, t.FollowsRules (t.resume limit (.oneTape input)).1) ∧
      (∀ trace last, t.proceed none (.oneTape input) = some (trace, last) →
        t.FollowsRules trace) ∧
      ∀ v, t.HaltsWith (.oneTape input) v →
        ∃ trace last, t.proceed none (.oneTape input) = some (trace, last) ∧
          trace.verdict = some v) ∧
    ∀ (t : TwoTapeTable) (first second : List Symbol),
      (∀ limit, t.FollowsRules (t.resume limit (.twoTapes first second)).1) ∧
      (∀ trace last, t.proceed none (.twoTapes first second) = some (trace, last) →
        t.FollowsRules trace) ∧
      ∀ v, t.HaltsWith (.twoTapes first second) v →
        ∃ trace last, t.proceed none (.twoTapes first second) = some (trace, last) ∧
          trace.verdict = some v := by
  constructor
  · intro t input
    refine ⟨Table.followsRules_resume _, ?_, ?_⟩
    · intro trace last h
      exact Table.followsRules_finish h
    · intro v h
      exact Table.exists_finish_of_haltsWith rfl h
  · intro t first second
    refine ⟨Table.followsRules_resume _, ?_, ?_⟩
    · intro trace last h
      exact Table.followsRules_finish h
    · intro v h
      exact Table.exists_finish_of_haltsWith rfl h

/-- The machine passes over both ones in state 0 and accepts on the blank behind them. -/
theorem records_follow_rules_onlyOnes :
    ∃ last, onlyOnes.proceed none (.oneTape [.one, .one]) =
        some (⟨[0, 0], some (.accept 1)⟩, last) ∧
      onlyOnes.FollowsRules ⟨[0, 0], some (.accept 1)⟩ := by
  obtain ⟨-, hfollows, hrecord⟩ := records_follow_rules.1 onlyOnes [.one, .one]
  obtain ⟨trace, last, hproceed, -⟩ := hrecord (.accept 1) ⟨3, rfl⟩
  have hhalts : onlyOnes.HaltsAfter (.oneTape [.one, .one]) 2 (.accept 1) :=
    (Table.haltsAfter_iff rfl).mpr ⟨rfl, rfl⟩
  obtain rfl : trace = ⟨[0, 0], some (.accept 1)⟩ := by
    have heq := hproceed.symm.trans (Table.finish_of_haltsAfter hhalts [])
    exact congrArg Prod.fst (Option.some.inj heq)
  exact ⟨last, hproceed, hfollows _ last hproceed⟩

end TapeReduction
