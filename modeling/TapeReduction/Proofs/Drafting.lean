import Mathlib.Data.List.Nodup
import TapeReduction.Table.Basic

/-!
# Drafting a list of rules

A list of rules can be added to a draft one after the other if no two of them
are for the same state and key, and the draft has none of them yet.  What the
draft then says is what it said before together with the list.  A draft that
passes the three checks makes a table, and that table is the draft.  If it says
no more than the list, it has as many rules as the list is long.
-/

namespace TapeReduction.Draft

variable {κ δ : Type}

section Adding

variable [DecidableEq κ] [Glyphs κ]

/-- A rule for a state of the draft and a key without a rule can be added. -/
theorem exists_add_eq_ok
    {d : Draft κ δ} {state : Nat} {key : κ} (rule : Rule κ δ)
    (hlt : state < d.size) (hfree : d.rule? state key = none) :
    ∃ e, d.add state key rule = .ok e := by
  have hlt' : state < d.rows.size := hlt
  have hrow : d.rows[state] key = none := by
    simpa [rule?, hlt'] using hfree
  exact ⟨_, add_eq_ok_iff.mpr ⟨hlt', hrow, rfl⟩⟩

/-- What adding a rule comes to. -/
theorem add_cases (d : Draft κ δ) (state : Nat) (key : κ) (rule : Rule κ δ) :
    (d.size ≤ state ∧ d.add state key rule = .error (.invalidState state)) ∨
    (state < d.size ∧ (d.rule? state key).isSome = true ∧
      d.add state key rule = .error (.duplicateRule state (label key))) ∨
    ∃ e, state < d.size ∧ d.rule? state key = none ∧ d.add state key rule = .ok e := by
  by_cases hlt : state < d.size
  · have hlt' : state < d.rows.size := hlt
    cases hrule : d.rule? state key with
    | some old =>
      have hrow : d.rows[state] key = some old := by simpa [rule?, hlt'] using hrule
      exact .inr (.inl ⟨hlt, rfl, by simp [add, hlt', hrow]⟩)
    | none =>
      obtain ⟨e, he⟩ := exists_add_eq_ok rule hlt hrule
      exact .inr (.inr ⟨e, hlt, rfl, he⟩)
  · have hlt' : ¬state < d.rows.size := hlt
    exact .inl ⟨Nat.le_of_not_lt hlt, by simp [add, hlt']⟩

/-- Adding the rules of a list, each for a state and key of its own, succeeds
and adds exactly these rules. -/
theorem exists_foldlM_add_eq_ok
    {ι : Type} (state : ι → Nat) (key : ι → κ) (rule : ι → Rule κ δ)
    (l : List ι) (d : Draft κ δ)
    (hlt : ∀ i ∈ l, state i < d.size)
    (hfree : ∀ i ∈ l, d.rule? (state i) (key i) = none)
    (hnodup : (l.map fun i => (state i, key i)).Nodup) :
    ∃ e, l.foldlM (fun d i => d.add (state i) (key i) (rule i)) d = .ok e ∧
      e.size = d.size ∧
      ∀ s k r, e.rule? s k = some r ↔
        (∃ i ∈ l, state i = s ∧ key i = k ∧ rule i = r) ∨ d.rule? s k = some r := by
  induction l generalizing d with
  | nil => exact ⟨d, rfl, rfl, by simp⟩
  | cons i l ih =>
    obtain ⟨hhead, htail⟩ := List.nodup_cons.mp hnodup
    have hfree_i : d.rule? (state i) (key i) = none := hfree i (List.mem_cons_self ..)
    obtain ⟨d', hadd⟩ :=
      exists_add_eq_ok (rule i) (hlt i (List.mem_cons_self ..)) hfree_i
    have hsize := size_of_add_eq_ok hadd
    have hrule := rule?_of_add_eq_ok hadd
    -- The rule just added is for another state or key than those still to come.
    have hfree' : ∀ j ∈ l, d'.rule? (state j) (key j) = none := by
      intro j hj
      rw [hrule, if_neg]
      · exact hfree j (List.mem_cons_of_mem _ hj)
      · rintro ⟨hs, hk⟩
        exact hhead (List.mem_map.mpr ⟨j, hj, by rw [hs, hk]⟩)
    have hlt' : ∀ j ∈ l, state j < d'.size := by
      intro j hj
      rw [hsize]
      exact hlt j (List.mem_cons_of_mem _ hj)
    obtain ⟨e, hfold, hesize, herule⟩ := ih d' hlt' hfree' htail
    refine ⟨e, ?_, hesize.trans hsize, ?_⟩
    · rw [List.foldlM_cons, hadd]
      exact hfold
    · intro s k r
      rw [herule, hrule]
      by_cases hkey : s = state i ∧ k = key i
      · obtain ⟨rfl, rfl⟩ := hkey
        simp [hfree_i, or_comm]
      · have hkey' : ¬(state i = s ∧ key i = k) := fun h => hkey ⟨h.1.symm, h.2.symm⟩
        rw [if_neg hkey]
        constructor
        · rintro (⟨j, hj, h⟩ | h)
          · exact .inl ⟨j, List.mem_cons_of_mem _ hj, h⟩
          · exact .inr h
        · rintro (⟨j, hj, hs, hk, hr⟩ | h)
          · rcases List.mem_cons.mp hj with rfl | hj
            · exact absurd ⟨hs, hk⟩ hkey'
            · exact .inl ⟨j, hj, hs, hk, hr⟩
          · exact .inr h

/-- Rules that were added one after the other were each for a state and key of its own,
without a rule before. -/
theorem of_foldlM_add_eq_ok
    {ι : Type} {state : ι → Nat} {key : ι → κ} {rule : ι → Rule κ δ}
    {l : List ι} {d e : Draft κ δ}
    (h : l.foldlM (fun d i => d.add (state i) (key i) (rule i)) d = .ok e) :
    (∀ i ∈ l, state i < d.size) ∧ (∀ i ∈ l, d.rule? (state i) (key i) = none) ∧
      (l.map fun i => (state i, key i)).Nodup := by
  induction l generalizing d with
  | nil => simp
  | cons i l ih =>
    rw [List.foldlM_cons] at h
    cases hadd : d.add (state i) (key i) (rule i) with
    | error fault =>
      rw [hadd] at h
      cases h
    | ok d' =>
      rw [hadd] at h
      obtain ⟨hlt, hfree, hnodup⟩ := ih h
      obtain ⟨hlt_i, hfree_i, -⟩ := add_eq_ok_iff.mp hadd
      have hrule := rule?_of_add_eq_ok hadd
      have hother : ∀ j ∈ l, ¬(state j = state i ∧ key j = key i) := by
        intro j hj hkey
        have hnone := hfree j hj
        rw [hrule, if_pos hkey] at hnone
        cases hnone
      refine ⟨?_, ?_, ?_⟩
      · rw [size_of_add_eq_ok hadd] at hlt
        exact List.forall_mem_cons.mpr ⟨hlt_i, hlt⟩
      · refine List.forall_mem_cons.mpr ⟨by simpa [rule?, hlt_i] using hfree_i, ?_⟩
        intro j hj
        have hnone := hfree j hj
        rwa [hrule, if_neg (hother j hj)] at hnone
      · refine List.nodup_cons.mpr ⟨?_, hnodup⟩
        intro hmem
        obtain ⟨j, hj, heq⟩ := List.mem_map.mp hmem
        exact hother j hj (Prod.mk.inj heq)

end Adding

/-- A draft is its number of states and their rules. -/
theorem ext_rule? {d e : Draft κ δ} (hsize : d.size = e.size)
    (hrule : ∀ state < d.size, ∀ key, d.rule? state key = e.rule? state key) : d = e := by
  obtain ⟨rows⟩ := d
  obtain ⟨rows'⟩ := e
  congr 1
  refine Array.ext hsize ?_
  intro state hlt hlt'
  funext key
  simpa [rule?, hlt, hlt'] using hrule state hlt key

variable [Alphabet κ]

theorem undefinedTargets_eq_nil_of_closed
    {d : Draft κ δ} (h : d.Closed) : d.undefinedTargets = [] := by
  simp only [undefinedTargets, List.flatMap_eq_nil_iff, List.filterMap_eq_nil_iff]
  rintro state - ⟨key, rule⟩ hmem
  simpa using h state key rule (mem_rules_iff.mp hmem)

theorem rules_eq_nil_of_rule?_eq_none
    {d : Draft κ δ} {state : Nat} (h : ∀ key, d.rule? state key = none) :
    d.rules state = [] := by
  apply List.eq_nil_iff_forall_not_mem.mpr
  rintro ⟨key, rule⟩ hmem
  rw [mem_rules_iff, h key] at hmem
  cases hmem

/-- A draft that passes the checks makes a table. -/
theorem exists_build_eq_ok
    {d : Draft κ δ} (hsize : 0 < d.size) (hclosed : d.Closed)
    (hlast : ∀ key, d.rule? d.accepting key = none) :
    ∃ t, d.build = .ok t ∧ t.toDraft = d := by
  have htargets := undefinedTargets_eq_nil_of_closed hclosed
  have hrules := rules_eq_nil_of_rule?_eq_none hlast
  unfold build
  rw [dif_neg (Nat.ne_of_gt hsize)]
  split
  · next htarget => exact nomatch htargets.symm.trans htarget
  · split
    · next hrule => exact nomatch hrules.symm.trans hrule
    · exact ⟨_, rfl, rfl⟩

theorem toDraft_of_build_eq_ok {d : Draft κ δ} {t : Table κ δ} (h : d.build = .ok t) :
    t.toDraft = d := by
  unfold build at h
  split at h
  · cases h
  · split at h
    · cases h
    · split at h
      · cases h
      · rw [← Except.ok.inj h]

/-! ## The number of rules -/

/-- What holds of every two members of the alphabet, in their order, holds of the keys of a
state. -/
theorem pairwise_rules_of_members {r : κ → κ → Prop}
    (h : (Alphabet.members : List κ).Pairwise r) (d : Draft κ δ) (state : Nat) :
    (d.rules state).Pairwise fun e e' => r e.1 e'.1 := by
  refine List.Pairwise.filterMap _ ?_ h
  intro key key' hr e he e' he'
  obtain ⟨_, -, rfl⟩ := Option.map_eq_some_iff.mp he
  obtain ⟨_, -, rfl⟩ := Option.map_eq_some_iff.mp he'
  exact hr

theorem pairwise_rules (d : Draft κ δ) (state : Nat) :
    (d.rules state).Pairwise fun e e' => e.1 ≠ e'.1 :=
  d.pairwise_rules_of_members Alphabet.nodup_members state

/-- The states and keys that have a rule. -/
def keys (d : Draft κ δ) : List (Nat × κ) :=
  (List.range d.size).flatMap fun state => (d.rules state).map fun e => (state, e.1)

theorem length_keys (d : Draft κ δ) : d.keys.length = d.ruleCount := by
  simp only [keys, ruleCount, List.length_flatMap, List.length_map]

theorem mem_keys_iff {d : Draft κ δ} {state : Nat} {key : κ} :
    (state, key) ∈ d.keys ↔ ∃ rule, d.rule? state key = some rule := by
  simp only [keys, List.mem_flatMap, List.mem_range, List.mem_map, Prod.mk.injEq]
  constructor
  · rintro ⟨state, -, ⟨key, rule⟩, hmem, rfl, rfl⟩
    exact ⟨rule, mem_rules_iff.mp hmem⟩
  · rintro ⟨rule, hrule⟩
    exact ⟨state, lt_size_of_rule? hrule, (key, rule), mem_rules_iff.mpr hrule, rfl, rfl⟩

theorem nodup_keys (d : Draft κ δ) : d.keys.Nodup := by
  refine List.nodup_flatMap.mpr ⟨?_, ?_⟩
  · intro state _
    refine List.pairwise_map.mpr ((d.pairwise_rules state).imp ?_)
    intro e e' hne heq
    exact hne (Prod.mk.inj heq).2
  · refine List.nodup_range.imp ?_
    intro state state' hne k hk hk'
    obtain ⟨_, -, rfl⟩ := List.mem_map.mp hk
    obtain ⟨_, -, heq⟩ := List.mem_map.mp hk'
    exact hne (Prod.mk.inj heq).1.symm

/-- A draft with the rules of a list, each for a state and key of its own, has as many rules
as the list. -/
theorem ruleCount_eq_length
    {ι : Type} (state : ι → Nat) (key : ι → κ) (rule : ι → Rule κ δ)
    {l : List ι} {d : Draft κ δ}
    (hnodup : (l.map fun i => (state i, key i)).Nodup)
    (hrule : ∀ s k r, d.rule? s k = some r ↔ ∃ i ∈ l, state i = s ∧ key i = k ∧ rule i = r) :
    d.ruleCount = l.length := by
  have hmem : ∀ p, p ∈ d.keys ↔ p ∈ l.map fun i => (state i, key i) := by
    rintro ⟨s, k⟩
    rw [mem_keys_iff, List.mem_map]
    constructor
    · rintro ⟨r, hr⟩
      obtain ⟨i, hi, rfl, rfl, -⟩ := (hrule s k r).mp hr
      exact ⟨i, hi, rfl⟩
    · rintro ⟨i, hi, heq⟩
      obtain ⟨rfl, rfl⟩ := Prod.mk.inj heq
      exact ⟨rule i, (hrule _ _ _).mpr ⟨i, hi, rfl, rfl, rfl⟩⟩
  have hperm := (List.perm_ext_iff_of_nodup d.nodup_keys hnodup).mpr hmem
  rw [← length_keys, hperm.length_eq, List.length_map]

end TapeReduction.Draft
