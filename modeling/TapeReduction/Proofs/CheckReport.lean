import TapeReduction.Proofs.Inputs
import TapeReduction.Proofs.Reuse
import TapeReduction.Proofs.StepBound

/-!
# A check of a reduction finds nothing

Where the two-tape machine halts within its limit, the reduced machine is given
enough steps to halt the same way, so an input never tells the two apart.  A
check then goes through all inputs, and its report counts those on which the
two-tape machine was given up and those on which it was not.
-/

namespace TapeReduction

namespace Equivalence

open Reduction (Reduced reducedVerdict)

theorem sameVerdict_reducedVerdict
    {x y : Trace} {states : Nat} {v : Verdict} (hx : x.verdict = some v)
    (hy : y.verdict = some (reducedVerdict states v)) : sameVerdict x y = true := by
  cases v with
  | accept state => simp [sameVerdict, Trace.accepts, Trace.rejects, hx, hy, reducedVerdict]
  | reject => simp [sameVerdict, Trace.accepts, Trace.rejects, hx, hy, reducedVerdict]

namespace Pairing

variable {p : Pairing} {w : List Symbol}

/-- The two-tape machine is given up on an input. -/
def givesUp (p : Pairing) (w : List Symbol) : Bool :=
  (p.two.resume p.settings.stepLimit (.twoTapes w [])).1.undetermined

theorem compare_of_reduced
    (h : Reduced p.two p.one) (hw : ∀ x ∈ w, x ∈ Symbol.inputs) :
    p.compare w = if p.givesUp w then .undetermined else .agree := by
  rcases Table.resume_cases (t := p.two) (c := .twoTapes w []) p.settings.stepLimit rfl with
    ⟨k, v, -, hk, hlast, heq⟩ | ⟨-, hverdict⟩
  · obtain ⟨n, hlt, hn, -⟩ := h.exists_halt_lt_stepBound hw hk hlast
    have hone := Table.verdict_resume rfl ((Nat.zero_add n).trans_le hlt.le) hn
    have hsame : sameVerdict ⟨p.two.visited (.twoTapes w []) k, some v⟩ _ = true :=
      sameVerdict_reducedVerdict rfl hone
    simp only [compare, givesUp, heq, hsame, Trace.undetermined]
    rfl
  · have hgivesUp : p.givesUp w = true := by
      rw [givesUp, Trace.undetermined, hverdict]
      rfl
    rw [if_pos hgivesUp]
    exact if_pos hgivesUp

theorem counterexample?_of_reduced
    (h : Reduced p.two p.one) (hw : ∀ x ∈ w, x ∈ Symbol.inputs) :
    p.counterexample? w = none := by
  rw [counterexample?, compare_of_reduced h hw]
  cases p.givesUp w with
  | true => rfl
  | false => rfl

/-- As long as no input tells the machines apart, a check counts. -/
theorem checkInputs_eq
    {l : List (List Symbol)}
    (h : ∀ w ∈ l, p.compare w = if p.givesUp w then .undetermined else .agree)
    (report : Report) :
    p.checkInputs report l =
      { report with
        checked := report.checked + l.countP (fun w => !p.givesUp w)
        undetermined := report.undetermined + l.countP p.givesUp } := by
  induction l generalizing report with
  | nil => rfl
  | cons w l ih =>
    obtain ⟨hw, hl⟩ := List.forall_mem_cons.mp h
    cases hgivesUp : p.givesUp w with
    | true =>
      rw [hgivesUp, if_pos rfl] at hw
      simp only [checkInputs, hw, ih hl, List.countP_cons, hgivesUp]
      grind
    | false =>
      rw [hgivesUp, if_neg Bool.false_ne_true] at hw
      simp only [checkInputs, hw, ih hl, List.countP_cons, hgivesUp]
      grind

/-- However its two machines were used before, a check reports what the inputs tell. -/
theorem checkOn_of_reduced (h : Reduced p.two p.one) (b : Bench) :
    p.checkOn b =
      { checked := (inputsUpTo p.settings.maxLength).countP fun w => !p.givesUp w
        undetermined := (inputsUpTo p.settings.maxLength).countP p.givesUp
        maxLength := p.settings.maxLength
        counterexample := none } := by
  have hcompare : ∀ w ∈ inputsUpTo p.settings.maxLength,
      p.compare w = if p.givesUp w then .undetermined else .agree := by
    intro w hw
    exact compare_of_reduced h (mem_inputsUpTo_iff.mp hw).1
  rw [checkOn, p.checkInputsOn_eq, checkInputs_eq hcompare, Nat.zero_add, Nat.zero_add]

end Pairing

/-- Every two-tape table can be paired with its reduced table, and no input tells the two
apart.  A check, with two machines that are loaded again for every input, counts as
undetermined exactly the short inputs on which the two-tape machine neither accepts within the
limit of steps nor rejects with a step to spare, and it compares the runs on all others. -/
theorem check_finds_no_counterexample (t : TwoTapeTable) (settings : Settings) :
    ∃ p, Pairing.ofTable t settings = .ok p ∧
      (p.checkOn .fresh).counterexample = none ∧
      (p.checkOn .fresh).undetermined = Set.ncard {w | ShortInput settings.maxLength w ∧
        ¬t.AcceptsWithin settings.stepLimit (.twoTapes w []) ∧
        ¬t.RejectsBefore settings.stepLimit (.twoTapes w [])} ∧
      (p.checkOn .fresh).checked + (p.checkOn .fresh).undetermined =
        2 ^ (settings.maxLength + 1) - 1 ∧
      ∀ w : List Symbol, (∀ x ∈ w, x ∈ Symbol.inputs) → p.counterexample? w = none := by
  obtain ⟨one, hreduce, h⟩ := Reduction.exists_reduce_eq_ok t
  have hpairing : Pairing.ofTable t settings = .ok ⟨t, one, settings⟩ := by
    rw [Pairing.ofTable, hreduce]
    rfl
  refine ⟨⟨t, one, settings⟩, hpairing, ?_, ?_, ?_, ?_⟩
  · rw [Pairing.checkOn_of_reduced h]
  · have hlimit : ∀ w, Pairing.givesUp ⟨t, one, settings⟩ w = true ↔
        ¬t.AcceptsWithin settings.stepLimit (.twoTapes w []) ∧
          ¬t.RejectsBefore settings.stepLimit (.twoTapes w []) := by
      intro w
      exact Table.undetermined_resume_iff settings.stepLimit rfl
    calc
      _ = (inputsUpTo settings.maxLength).countP (Pairing.givesUp ⟨t, one, settings⟩) := by
        rw [Pairing.checkOn_of_reduced h]
      _ = _ := countP_inputsUpTo _ _
      _ = _ := by simp only [hlimit]
  · rw [Pairing.checkOn_of_reduced h, Nat.add_comm, ← length_inputsUpTo,
      List.length_eq_countP_add_countP (Pairing.givesUp ⟨t, one, settings⟩)]
    simp only [Bool.not_eq_true, Bool.decide_eq_false]
  · intro w hw
    exact Pairing.counterexample?_of_reduced h hw

/-- The longest input of the check has one symbol; the one asked for has three. -/
theorem check_finds_no_counterexample_leadingOne :
    ∃ p, Pairing.ofTable leadingOne ⟨1, 1⟩ = .ok p ∧
      (p.checkOn .fresh).checked + (p.checkOn .fresh).undetermined = 3 ∧
      p.counterexample? [.one, .zero, .one] = none := by
  obtain ⟨p, hpairing, -, -, hsum, hnone⟩ := check_finds_no_counterexample leadingOne ⟨1, 1⟩
  exact ⟨p, hpairing, hsum, hnone [.one, .zero, .one] (by decide)⟩

end Equivalence

end TapeReduction
