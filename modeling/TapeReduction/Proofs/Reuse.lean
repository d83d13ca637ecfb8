import TapeReduction.Equivalence.Bench
import TapeReduction.Proofs.Emulation
import TapeReduction.Proofs.Resumption

/-!
# Machines that are used again

A machine that is loaded is a machine that was just made and loaded, whatever it was
told before: its tapes, its state, the number of its steps and how it halted are all
replaced.  So a run on an input does not depend on the runs before it.

A check runs the same two machines on one input after the other.  What it finds out
about an input is what new machines would show.
-/

namespace TapeReduction

/-! ## Loading -/

section Loading

variable {σ γ τ ε : Type} [Loadable σ γ] [Loadable τ ε]

/-- What tapes are after loading depends on the content only. -/
def Forgets (σ : Type) {γ : Type} [Loadable σ γ] : Prop :=
  ∀ (content : γ) (s s' : σ), Loadable.load content s = Loadable.load content s'

theorem forgets_tape {α : Type} {blank : α} : Forgets (Tape blank) := by
  rintro content ⟨cells, head⟩ ⟨cells', head'⟩
  rfl

theorem Forgets.prod (h : Forgets σ) (h' : Forgets τ) : Forgets (σ × τ) := by
  rintro ⟨content, content'⟩ ⟨s, r⟩ ⟨s', r'⟩
  exact congrArg₂ Prod.mk (h content s s') (h' content' r r')

theorem forgets_oneTape : Forgets OneTape :=
  forgets_tape

theorem forgets_twoTapes : Forgets TwoTapes :=
  forgets_tape.prod forgets_tape

namespace Config

theorem reset_eq (h : Forgets σ) (c d : Config σ) : c.reset = d.reset := by
  rw [reset, reset, h (Loadable.nothing σ) c.tapes d.tapes]

/-- Nothing of a machine is left when it is loaded. -/
theorem reload_eq (h : Forgets σ) (c d : Config σ) (state : Nat) (content : γ) :
    c.reload state content = d.reload state content := by
  rw [reload, reload, reset_eq h c d]

/-- A machine loaded with an input is the machine on that input. -/
theorem reload_oneTape (c : Config OneTape) (input : List Symbol) :
    c.reload 0 (plainCells input) = .oneTape input :=
  rfl

theorem reload_twoTapes (c : Config TwoTapes) (first second : List Symbol) :
    c.reload 0 (first, second) = .twoTapes first second :=
  rfl

end Config

end Loading

/-! ## Commands one after the other -/

/-- The command does not let a machine run without a limit. -/
def Command.hasLimit {γ : Type} : Command γ → Bool
  | .resume limit => limit.isSome
  | .run _ limit => limit.isSome
  | _ => true

namespace Table

variable {κ δ σ γ : Type} [Alphabet κ] [Tapes σ κ δ] [Loadable σ γ] (t : Table κ δ)

/-- The machine after commands, if each of them has an answer. -/
def operate (t : Table κ δ) (c : Config σ) (commands : List (Command γ)) :
    Option (Config σ) :=
  commands.foldlM (fun c command => (t.perform c command).map Prod.snd) c

/-- A command with a limit has an answer. -/
theorem exists_perform_eq_some (c : Config σ) {command : Command γ}
    (h : command.hasLimit = true) :
    ∃ response next, t.perform c command = some (response, next) := by
  cases command with
  | reset => exact ⟨_, _, rfl⟩
  | load state content => exact ⟨_, _, rfl⟩
  | step => exact ⟨_, _, rfl⟩
  | advance count =>
    cases count with
    | zero => exact ⟨_, _, rfl⟩
    | succ count => exact ⟨_, _, rfl⟩
  | resume limit =>
    obtain ⟨limit, rfl⟩ := Option.isSome_iff_exists.mp h
    exact ⟨_, _, rfl⟩
  | run content limit =>
    obtain ⟨limit, rfl⟩ := Option.isSome_iff_exists.mp h
    exact ⟨_, _, rfl⟩

theorem exists_operate_eq_some (c : Config σ) {commands : List (Command γ)}
    (h : ∀ command ∈ commands, command.hasLimit = true) :
    ∃ next, t.operate c commands = some next := by
  induction commands generalizing c with
  | nil => exact ⟨c, rfl⟩
  | cons command commands ih =>
    obtain ⟨hcommand, hrest⟩ := List.forall_mem_cons.mp h
    obtain ⟨response, next, hperform⟩ := t.exists_perform_eq_some c hcommand
    obtain ⟨last, hlast⟩ := ih next hrest
    refine ⟨last, ?_⟩
    rw [operate, List.foldlM_cons, hperform]
    exact hlast

/-- The answer to a run, and the machine after it, do not depend on the machine before. -/
theorem perform_run_eq (h : Forgets σ) (c d : Config σ) (content : γ) (limit : Option Nat) :
    t.perform c (.run content limit) = t.perform d (.run content limit) := by
  rw [perform, perform, Config.reload_eq h c d]

/-- After any commands with limits, a run with a limit has the answer it has on a machine that
was just made, and leaves what it leaves there. -/
theorem exists_run_after (h : Forgets σ) {before : List (Command γ)}
    (hbefore : ∀ command ∈ before, command.hasLimit = true) (content : γ) (limit : Nat) :
    ∃ c : Config σ, t.operate .fresh before = some c ∧
      t.perform c (.run content (some limit)) =
        some (.traced (t.resume limit ((.fresh : Config σ).reload 0 content)).1,
          (t.resume limit ((.fresh : Config σ).reload 0 content)).2) := by
  obtain ⟨c, hc⟩ := t.exists_operate_eq_some (.fresh : Config σ) hbefore
  refine ⟨c, hc, ?_⟩
  rw [t.perform_run_eq h c .fresh]
  rfl

end Table

/-! ## Checks -/

namespace Equivalence.Pairing

variable (p : Pairing)

/-- What an input tells does not depend on what the machines did before. -/
theorem fst_compareOn (b : Bench) (input : List Symbol) :
    (p.compareOn b input).1 = p.compare input := by
  unfold compareOn compare
  rw [Config.reload_twoTapes, Config.reload_oneTape]
  dsimp only
  rw [apply_ite Prod.fst, apply_ite Prod.fst]

theorem compare_eq_differ_iff {input : List Symbol} {counterexample : Counterexample} :
    p.compare input = .differ counterexample ↔
      p.counterexample? input = some counterexample := by
  unfold counterexample?
  cases p.compare input with
  | agree => simp
  | undetermined => simp
  | differ counterexample => simp

/-- A check with two machines reports what a check with new machines for every input
reports. -/
theorem checkInputsOn_eq (b : Bench) (report : Report) (inputs : List (List Symbol)) :
    p.checkInputsOn b report inputs = p.checkInputs report inputs := by
  induction inputs generalizing b report with
  | nil => rfl
  | cons input rest ih =>
    have hfst := p.fst_compareOn b input
    rw [checkInputsOn, checkInputs]
    rcases hcompare : p.compareOn b input with ⟨comparison, next⟩
    rw [hcompare] at hfst
    rw [← hfst]
    cases comparison with
    | agree => exact ih next _
    | undetermined => exact ih next _
    | differ counterexample => rfl

/-- The counterexample of a report is the first one that an input gives on its own. -/
theorem counterexample_checkInputs {report : Report} (h : report.counterexample = none)
    (inputs : List (List Symbol)) :
    (p.checkInputs report inputs).counterexample = inputs.findSome? p.counterexample? := by
  induction inputs generalizing report with
  | nil => exact h
  | cons input rest ih =>
    rw [checkInputs, List.findSome?_cons, counterexample?]
    cases p.compare input with
    | agree => exact ih h
    | undetermined => exact ih h
    | differ counterexample => rfl

end Equivalence.Pairing

/-- After any commands with limits, a machine runs on an input with a limit as a new machine
does, and is left as a new one is.  So two machines of a check show about an input what new
ones would show, whatever they did before; a check that uses two machines over and over finds
the first counterexample that an input on its own gives, and its report is that of a check
with new machines for every input. -/
theorem used_machines_run_as_new :
    (∀ (t : OneTapeTable) (before before' : List (Command (List Cell))),
      (∀ command ∈ before, command.hasLimit = true) →
      (∀ command ∈ before', command.hasLimit = true) →
      ∀ (input : List Symbol) (limit : Nat), ∃ c d trace last,
        t.operate .fresh before = some c ∧ t.operate .fresh before' = some d ∧
        let run := Command.run (plainCells input) (some limit)
        t.perform c run = some (.traced trace, last) ∧
        t.perform d run = some (.traced trace, last) ∧
        t.perform (.fresh : Config OneTape) run = some (.traced trace, last)) ∧
    (∀ (t : TwoTapeTable) (before before' : List (Command (List Symbol × List Symbol))),
      (∀ command ∈ before, command.hasLimit = true) →
      (∀ command ∈ before', command.hasLimit = true) →
      ∀ (input : List Symbol) (limit : Nat), ∃ c d trace last,
        t.operate .fresh before = some c ∧ t.operate .fresh before' = some d ∧
        let run := Command.run (input, []) (some limit)
        t.perform c run = some (.traced trace, last) ∧
        t.perform d run = some (.traced trace, last) ∧
        t.perform (.fresh : Config TwoTapes) run = some (.traced trace, last)) ∧
    ∀ p : Equivalence.Pairing,
      (∀ (b : Equivalence.Bench) (input : List Symbol),
        (p.compareOn b input).1 = (p.compareOn .fresh input).1 ∧
        ∀ counterexample, (p.compareOn b input).1 = .differ counterexample ↔
          p.counterexample? input = some counterexample) ∧
      (p.checkOn .fresh).counterexample =
        (Equivalence.inputsUpTo p.settings.maxLength).findSome? p.counterexample? ∧
      p.checkOn .fresh = p.check := by
  refine ⟨?_, ?_, ?_⟩
  · intro t before before' hbefore hbefore' input limit
    obtain ⟨c, hc, hrun⟩ := t.exists_run_after forgets_oneTape hbefore (plainCells input) limit
    obtain ⟨d, hd, hrun'⟩ :=
      t.exists_run_after forgets_oneTape hbefore' (plainCells input) limit
    exact ⟨c, d, _, _, hc, hd, hrun, hrun', rfl⟩
  · intro t before before' hbefore hbefore' input limit
    obtain ⟨c, hc, hrun⟩ := t.exists_run_after forgets_twoTapes hbefore (input, []) limit
    obtain ⟨d, hd, hrun'⟩ := t.exists_run_after forgets_twoTapes hbefore' (input, []) limit
    exact ⟨c, d, _, _, hc, hd, hrun, hrun', rfl⟩
  · intro p
    have hcheck : p.checkOn .fresh = p.check := p.checkInputsOn_eq .fresh _ _
    refine ⟨?_, ?_, hcheck⟩
    · intro b input
      refine ⟨?_, ?_⟩
      · rw [p.fst_compareOn, p.fst_compareOn]
      · intro counterexample
        rw [p.fst_compareOn]
        exact p.compare_eq_differ_iff
    · rw [hcheck]
      exact p.counterexample_checkInputs rfl _

/-- One machine has accepted and was told to step again, the other was loaded on a separator
in the last state, reset and given up; both then run on a one as a new machine does.  The
first table accepts a one followed by a zero and the second does not, and two machines that
have halted before still tell. -/
theorem used_machines_run_as_new_onlyOnes :
    (∃ c d trace last,
      onlyOnes.operate (.fresh : Config OneTape) [.run [.plain .one] (some 5), .step] = some c ∧
      onlyOnes.operate (.fresh : Config OneTape)
        [.load 1 [.separator], .reset, .resume (some 0)] = some d ∧
      onlyOnes.perform c (.run (plainCells [.one]) (some 2)) = some (.traced trace, last) ∧
      onlyOnes.perform d (.run (plainCells [.one]) (some 2)) = some (.traced trace, last) ∧
      trace = ⟨[0], some (.accept 1)⟩) ∧
    ∃ counterexample,
      (Equivalence.Pairing.compareOn ⟨Reduction.leadingOne, onlyOnes, ⟨2, 10⟩⟩
        ⟨⟨1, ({}, {}), 7, some .reject⟩, ⟨1, {}, 9, some (.accept 1)⟩⟩ [.one, .zero]).1 =
        .differ counterexample := by
  obtain ⟨hone, -, hpairing⟩ := used_machines_run_as_new
  obtain ⟨hcompare, -, -⟩ := hpairing ⟨Reduction.leadingOne, onlyOnes, ⟨2, 10⟩⟩
  constructor
  · obtain ⟨c, d, trace, last, hc, hd, hrun, hrun', hfresh⟩ :=
      hone onlyOnes [.run [.plain .one] (some 5), .step]
        [.load 1 [.separator], .reset, .resume (some 0)] (by decide) (by decide) [.one] 2
    refine ⟨c, d, trace, last, hc, hd, hrun, hrun', ?_⟩
    obtain ⟨htrace, -⟩ := Prod.mk.inj (Option.some.inj hfresh)
    exact (Response.traced.inj htrace).symm
  · have hdiffer : (Equivalence.Pairing.counterexample?
        ⟨Reduction.leadingOne, onlyOnes, ⟨2, 10⟩⟩ [.one, .zero]).isSome = true := rfl
    obtain ⟨counterexample, hsome⟩ := Option.isSome_iff_exists.mp hdiffer
    exact ⟨counterexample, ((hcompare _ [.one, .zero]).2 counterexample).mpr hsome⟩

end TapeReduction
