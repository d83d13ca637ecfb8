import TapeReduction.Proofs.DraftChecks
import TapeReduction.Table.Calls
import TapeReduction.Table.Printer

/-!
# What calls make of a draft

After any sequence of calls, a draft holds exactly the rules of the calls for a rule
that were not refused, no two of them for the same state and key.  So it is known
which call will be refused next and why, and what the draft will make when it is
built.  The order of the calls does not matter: sequences that end with as many
states and have added the same rules make the same draft.
-/

namespace TapeReduction

namespace Draft

variable {κ δ : Type}

/-! ## Drafts with the rules of a list -/

/-- The draft holds exactly the rules of a list, which has no two for one state and key. -/
structure Holds (d : Draft κ δ) (rules : List (Nat × κ × Rule κ δ)) : Prop where
  rule?_iff : ∀ state key rule, d.rule? state key = some rule ↔ (state, key, rule) ∈ rules
  nodup : (rules.map fun i => (i.1, i.2.1)).Nodup

variable {d e : Draft κ δ} {rules rules' : List (Nat × κ × Rule κ δ)}

theorem Holds.exists_mem_iff (h : d.Holds rules) {state : Nat} {key : κ} :
    (∃ rule, (state, key, rule) ∈ rules) ↔ (d.rule? state key).isSome = true := by
  rw [Option.isSome_iff_exists]
  exact exists_congr fun rule => (h.rule?_iff state key rule).symm

/-- What is found for a state and a key is the first rule on the list for them. -/
theorem Holds.rule?_eq_find? [DecidableEq κ] (h : d.Holds rules) (state : Nat) (key : κ) :
    d.rule? state key =
      (rules.find? fun i => i.1 = state ∧ i.2.1 = key).map fun i => i.2.2 := by
  cases hfind : rules.find? fun i => i.1 = state ∧ i.2.1 = key with
  | none =>
    rw [Option.map_none, Option.eq_none_iff_forall_ne_some]
    intro rule hrule
    have hmem := (h.rule?_iff state key rule).mp hrule
    simpa using List.find?_eq_none.mp hfind _ hmem
  | some i =>
    obtain ⟨s, k, rule⟩ := i
    have hkey : s = state ∧ k = key := by simpa using List.find?_some hfind
    obtain ⟨rfl, rfl⟩ := hkey
    exact (h.rule?_iff s k rule).mpr (List.mem_of_find?_eq_some hfind)

/-- Lists with the same rules, for as many states, make the same draft. -/
theorem Holds.eq_of_perm (h : d.Holds rules) (h' : e.Holds rules') (hsize : d.size = e.size)
    (hperm : rules.Perm rules') : d = e := by
  apply ext_rule? hsize
  intro state _ key
  apply Option.ext
  intro rule
  exact (h.rule?_iff state key rule).trans (hperm.mem_iff.trans (h'.rule?_iff ..).symm)

theorem Holds.ruleCount_eq [Alphabet κ] (h : d.Holds rules) : d.ruleCount = rules.length := by
  refine ruleCount_eq_length (fun i => i.1) (fun i => i.2.1) (fun i => i.2.2) h.nodup ?_
  intro state key rule
  rw [h.rule?_iff]
  constructor
  · intro hmem
    exact ⟨_, hmem, rfl, rfl, rfl⟩
  · rintro ⟨_, hmem, rfl, rfl, rfl⟩
    exact hmem

theorem Holds.exists_build_iff [Alphabet κ] (h : d.Holds rules) :
    (∃ t, d.build = .ok t) ↔
      0 < d.size ∧ (∀ i ∈ rules, i.2.2.target < d.size) ∧ ∀ i ∈ rules, i.1 ≠ d.size - 1 := by
  have hclosed : d.Closed ↔ ∀ i ∈ rules, i.2.2.target < d.size := by
    constructor
    · rintro hclosed ⟨state, key, rule⟩ hmem
      exact hclosed state key rule ((h.rule?_iff ..).mpr hmem)
    · intro hall state key rule hrule
      exact hall _ ((h.rule?_iff ..).mp hrule)
  have hlast : (∀ key, d.rule? (d.size - 1) key = none) ↔ ∀ i ∈ rules, i.1 ≠ d.size - 1 := by
    constructor
    · rintro hnone ⟨_, key, rule⟩ hmem rfl
      rw [← h.rule?_iff, hnone] at hmem
      cases hmem
    · intro hall key
      rw [Option.eq_none_iff_forall_ne_some]
      intro rule hrule
      exact hall _ ((h.rule?_iff ..).mp hrule) rfl
  rw [Draft.exists_build_iff, hclosed, hlast]

/-- A draft that has just been begun. -/
def Begun (d : Draft κ δ) : Prop :=
  d = {} ∨ ∃ states, d = ofSize states

theorem Begun.holds_nil (h : d.Begun) : d.Holds [] := by
  have hnone : ∀ state key, d.rule? state key = none := by
    intro state key
    rcases h with rfl | ⟨states, rfl⟩
    · rfl
    · exact rule?_ofSize states state key
  refine ⟨?_, List.nodup_nil⟩
  intro state key rule
  simp [hnone state key]

end Draft

variable {κ δ : Type} [DecidableEq κ] [Glyphs κ]

/-- The rule that a call has added with its state and key, if it was a call for a rule and was
not refused. -/
def DraftCall.added? : DraftCall κ δ × Except Fault Nat → Option (Nat × κ × Rule κ δ)
  | (.add state key rule, .ok _) => some (state, key, rule)
  | _ => none

/-- Whether a call is for a state. -/
def DraftCall.isAddState : DraftCall κ δ → Bool
  | .addState => true
  | .add .. => false

namespace Draft

/-- The draft after calls. -/
def after (d : Draft κ δ) (calls : List (DraftCall κ δ)) : Draft κ δ :=
  (d.perform calls).2

/-- The rules that calls have added, in the order of the calls. -/
def added (d : Draft κ δ) (calls : List (DraftCall κ δ)) : List (Nat × κ × Rule κ δ) :=
  (calls.zip (d.perform calls).1).filterMap DraftCall.added?

/-! ## One call -/

theorem call_addState (d : Draft κ δ) : d.call .addState = (.ok d.size, d.addState) := by
  have hcall : d.call .addState = (.ok (d.addState.size - 1), d.addState) := rfl
  rw [hcall, size_addState, Nat.add_sub_cancel]

/-- A call for a rule changes the draft only if it is not refused. -/
theorem call_add (d : Draft κ δ) (state : Nat) (key : κ) (rule : Rule κ δ) :
    d.call (.add state key rule) =
      match d.add state key rule with
      | .ok e => (.ok e.size, e)
      | .error fault => (.error fault, d) := by
  have hrun : ∀ result : Except Fault (Draft κ δ),
      ((do let e ← ofExcept result; set e; return e.size : Drafting κ δ Nat).run.run d) =
        match result with
        | .ok e => (.ok e.size, e)
        | .error fault => (.error fault, d) := by
    intro result
    cases result with
    | ok e => rfl
    | error fault => rfl
  exact hrun (d.add state key rule)

theorem snd_call_of_error {d e : Draft κ δ} {c : DraftCall κ δ} {fault : Fault}
    (h : d.call c = (.error fault, e)) : e = d := by
  cases c with
  | addState =>
    rw [call_addState] at h
    cases h
  | add state key rule =>
    rw [call_add] at h
    split at h
    · cases h
    · exact (Prod.mk.inj h).2.symm

/-! ## Many calls -/

theorem after_cons (d : Draft κ δ) (c : DraftCall κ δ) (calls : List (DraftCall κ δ)) :
    d.after (c :: calls) = (d.call c).2.after calls :=
  rfl

theorem added_cons (d : Draft κ δ) (c : DraftCall κ δ) (calls : List (DraftCall κ δ)) :
    d.added (c :: calls) =
      (DraftCall.added? (c, (d.call c).1)).toList ++ (d.call c).2.added calls := by
  have hzip : (c :: calls).zip (d.perform (c :: calls)).1 =
      (c, (d.call c).1) :: calls.zip ((d.call c).2.perform calls).1 := rfl
  rw [added, hzip, List.filterMap_cons]
  cases DraftCall.added? (c, (d.call c).1) with
  | none => rfl
  | some i => rfl

/-- One call keeps the account: a call that adds a rule adds it to the list. -/
theorem Holds.call {d : Draft κ δ} {rules : List (Nat × κ × Rule κ δ)} (h : d.Holds rules)
    (c : DraftCall κ δ) :
    (d.call c).2.Holds (rules ++ (DraftCall.added? (c, (d.call c).1)).toList) := by
  cases c with
  | addState =>
    have hadded : DraftCall.added? (κ := κ) (δ := δ) (.addState, .ok d.size) = none := rfl
    rw [call_addState, hadded, Option.toList_none, List.append_nil]
    refine ⟨?_, h.nodup⟩
    intro state key rule
    rw [rule?_addState]
    exact h.rule?_iff state key rule
  | add state key rule =>
    rw [call_add]
    cases hadd : d.add state key rule with
    | error fault => simpa [DraftCall.added?] using h
    | ok e =>
      have hrule := rule?_of_add_eq_ok hadd
      have hfree : d.rule? state key = none := by
        obtain ⟨hlt, hnone, -⟩ := add_eq_ok_iff.mp hadd
        simpa [rule?, hlt] using hnone
      dsimp only [DraftCall.added?, Option.toList_some]
      refine ⟨?_, ?_⟩
      · intro s k r
        rw [hrule, List.mem_append, List.mem_singleton, ← h.rule?_iff]
        by_cases hkey : s = state ∧ k = key
        · obtain ⟨rfl, rfl⟩ := hkey
          simp [hfree, eq_comm]
        · have hne : ¬(s, k, r) = (state, key, rule) := by
            intro heq
            obtain ⟨rfl, rfl, -⟩ : s = state ∧ k = key ∧ r = rule := by simpa using heq
            exact hkey ⟨rfl, rfl⟩
          rw [if_neg hkey, or_iff_left hne]
      · rw [List.map_append, List.nodup_append']
        refine ⟨h.nodup, List.nodup_singleton _, ?_⟩
        rw [List.map_singleton, List.disjoint_singleton]
        intro hmem
        obtain ⟨⟨s, k, r⟩, hr, heq⟩ := List.mem_map.mp hmem
        obtain ⟨rfl, rfl⟩ := Prod.mk.inj heq
        rw [← h.rule?_iff, hfree] at hr
        cases hr

theorem Holds.after {d : Draft κ δ} {rules : List (Nat × κ × Rule κ δ)} (h : d.Holds rules)
    (calls : List (DraftCall κ δ)) : (d.after calls).Holds (rules ++ d.added calls) := by
  induction calls generalizing d rules with
  | nil => simpa [Draft.after, perform, added] using h
  | cons c calls ih =>
    rw [after_cons, added_cons, ← List.append_assoc]
    exact ih (h.call c)

theorem Begun.holds_added {d : Draft κ δ} (h : d.Begun) (calls : List (DraftCall κ δ)) :
    (d.after calls).Holds (d.added calls) := by
  simpa using h.holds_nil.after calls

theorem size_after (d : Draft κ δ) (calls : List (DraftCall κ δ)) :
    (d.after calls).size = d.size + calls.countP DraftCall.isAddState := by
  induction calls generalizing d with
  | nil => rfl
  | cons c calls ih =>
    have hcall : (d.call c).2.size = d.size + if c.isAddState then 1 else 0 := by
      cases c with
      | addState => rw [call_addState, size_addState]; rfl
      | add state key rule =>
        rw [call_add]
        cases hadd : d.add state key rule with
        | ok e => exact size_of_add_eq_ok hadd
        | error fault => rfl
    rw [after_cons, ih, hcall, List.countP_cons]
    omega

/-! ## The account of a draft -/

/-- What holds of a draft that has just been begun, after calls: what it has become, what the
next call will do, and what it makes. -/
structure AccountsFor [Alphabet κ] (d : Draft κ δ) (calls : List (DraftCall κ δ)) : Prop where
  size_eq : (d.after calls).size = d.size + calls.countP DraftCall.isAddState
  /-- A call that is refused leaves the draft as it was. -/
  eq_of_refused : ∀ c fault e, (d.after calls).call c = (.error fault, e) → e = d.after calls
  /-- A call for a state is answered with its number. -/
  addState : (d.after calls).call .addState =
    (.ok (d.after calls).size, (d.after calls).addState)
  invalid_iff : ∀ state key rule,
    ((d.after calls).call (.add state key rule)).1 = .error (.invalidState state) ↔
      (d.after calls).size ≤ state
  duplicate_iff : ∀ state key rule,
    ((d.after calls).call (.add state key rule)).1 =
        .error (.duplicateRule state (label key)) ↔
      state < (d.after calls).size ∧ ∃ old, (state, key, old) ∈ d.added calls
  /-- There is no other reason to refuse a rule. -/
  accepted_iff : ∀ state key rule,
    (∃ n, ((d.after calls).call (.add state key rule)).1 = .ok n) ↔
      state < (d.after calls).size ∧ ¬∃ old, (state, key, old) ∈ d.added calls
  /-- The rule for a state and a key is the first one that was added for them. -/
  rule?_eq : ∀ state key, (d.after calls).rule? state key =
    ((d.added calls).find? fun i => i.1 = state ∧ i.2.1 = key).map fun i => i.2.2
  ruleCount_eq : (d.after calls).ruleCount = (d.added calls).length
  build_iff : (∃ t, (d.after calls).build = .ok t) ↔
    0 < (d.after calls).size ∧
      (∀ i ∈ d.added calls, i.2.2.target < (d.after calls).size) ∧
      ∀ i ∈ d.added calls, i.1 ≠ (d.after calls).size - 1
  /-- A table that is built is the draft. -/
  toDraft_eq : ∀ t, (d.after calls).build = .ok t → t.toDraft = d.after calls
  /-- What is reported is the first of the three checks that fails. -/
  build_error_iff : ∀ fault, (d.after calls).build = .error fault ↔
    ∃ flaw, fault = .unsound flaw ∧ (d.after calls).FirstFlaw flaw

theorem Begun.accountsFor [Alphabet κ] {d : Draft κ δ} (h : d.Begun)
    (calls : List (DraftCall κ δ)) : d.AccountsFor calls := by
  have hholds := h.holds_added calls
  refine ⟨size_after d calls, ?_, call_addState _, ?_, ?_, ?_, hholds.rule?_eq_find?,
    hholds.ruleCount_eq, hholds.exists_build_iff, ?_, fun _ => build_eq_error_iff⟩
  · intro c fault e hcall
    exact snd_call_of_error hcall
  · intro state key rule
    rw [call_add]
    rcases (d.after calls).add_cases state key rule with
      ⟨hle, hadd⟩ | ⟨hlt, -, hadd⟩ | ⟨e, hlt, -, hadd⟩
    · simp [hadd, hle]
    · simp [hadd, Nat.not_le.mpr hlt]
    · simp [hadd, Nat.not_le.mpr hlt]
  · intro state key rule
    rw [call_add, hholds.exists_mem_iff]
    rcases (d.after calls).add_cases state key rule with
      ⟨hle, hadd⟩ | ⟨hlt, hsome, hadd⟩ | ⟨e, hlt, hnone, hadd⟩
    · simp [hadd, Nat.not_lt.mpr hle]
    · simp [hadd, hlt, hsome]
    · simp [hadd, hnone]
  · intro state key rule
    rw [call_add, hholds.exists_mem_iff]
    rcases (d.after calls).add_cases state key rule with
      ⟨hle, hadd⟩ | ⟨hlt, hsome, hadd⟩ | ⟨e, hlt, hnone, hadd⟩
    · simp [hadd, Nat.not_lt.mpr hle]
    · simp [hadd, hsome]
    · simp [hadd, hlt, hnone]
  · intro t ht
    exact toDraft_of_build_eq_ok ht

end Draft

open Alphabet (rank)

/-- After calls, a draft that has just been begun accounts for them.  Two drafts that end with
as many states, having added the same rules in whatever order, are built alike: both are
refused for the same reason, or both make the same table, with the same text, in which the
rules of each state are in ascending order of their keys.  Symbols and cells ascend with their
numbers, and pairs of symbols with their first parts, then with their second. -/
theorem drafts_account_for_calls [Alphabet κ] [Glyphs δ] {d e : Draft κ δ}
    (hd : d.Begun) (he : e.Begun) (calls calls' : List (DraftCall κ δ)) :
    d.AccountsFor calls ∧
    ((d.after calls).size = (e.after calls').size → (d.added calls).Perm (e.added calls') →
      (d.after calls).build = (e.after calls').build ∧
      ∀ t u, (d.after calls).build = .ok t → (e.after calls').build = .ok u →
        t = u ∧ t.render = u.render ∧
          ∀ state, (t.rules state).Pairwise fun e e' => rank e.1 < rank e'.1) ∧
    (∀ s : Symbol, rank s = Reduction.symbolIndex s) ∧
    (∀ c : Cell, rank c = Reduction.cellIndex c) ∧
    ∀ p q : Symbol × Symbol, rank p < rank q ↔
      rank p.1 < rank q.1 ∨ p.1 = q.1 ∧ rank p.2 < rank q.2 := by
  refine ⟨hd.accountsFor calls, ?_, Alphabet.rank_symbol, Alphabet.rank_cell,
    fun _ _ => Alphabet.rank_pair_lt_iff⟩
  intro hsize hperm
  have heq : d.after calls = e.after calls' :=
    (hd.holds_added calls).eq_of_perm (he.holds_added calls') hsize hperm
  refine ⟨congrArg Draft.build heq, ?_⟩
  intro t u ht hu
  have htable : t = u := by
    rw [heq, hu] at ht
    exact (Except.ok.inj ht).symm
  refine ⟨htable, congrArg Table.render htable, ?_⟩
  intro state
  exact t.pairwise_rank_rules state

/-- Two states are added before the rules or are there from the start, and the rules are added
in one order or the other.  A second rule for the same key is refused on the way. -/
theorem drafts_account_for_calls_two_orders :
    let onZero : Rule Cell Move := ⟨0, .plain .one, .right⟩
    let onBlank : Rule Cell Move := ⟨1, .blank, .left⟩
    let one : Draft Cell Move := Draft.after {}
      [.addState, .addState, .add 0 (.plain .zero) onZero, .add 0 (.plain .zero) onBlank,
        .add 0 .blank onBlank]
    let other : Draft Cell Move := Draft.after (.ofSize 2)
      [.add 0 .blank onBlank, .add 0 (.plain .zero) onZero]
    one.build = other.build ∧ one.ruleCount = 2 ∧ ∃ t, one.build = .ok t := by
  intro onZero onBlank one other
  obtain ⟨haccount, horder, -⟩ := drafts_account_for_calls (d := {}) (e := .ofSize 2)
    (.inl rfl) (.inr ⟨2, rfl⟩)
    [.addState, .addState, .add 0 (.plain .zero) onZero, .add 0 (.plain .zero) onBlank,
      .add 0 .blank onBlank]
    [.add 0 .blank onBlank, .add 0 (.plain .zero) onZero]
  refine ⟨(horder rfl (by decide)).1, haccount.ruleCount_eq, haccount.build_iff.mpr ?_⟩
  decide

end TapeReduction
