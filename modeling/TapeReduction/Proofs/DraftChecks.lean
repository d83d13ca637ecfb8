import TapeReduction.Proofs.KeyOrder

/-!
# The first check a draft fails

A draft makes a table unless it fails one of three checks, and what is reported is
the first one it fails: there is no state, a target is not a state, or the last
state has a rule.  Targets that are not states are reported all together, in the
order of the rules they belong to: by state, then by key.
-/

namespace TapeReduction.Draft

open Alphabet (rank)

variable {κ δ : Type} [DecidableEq κ] [Alphabet κ]

/-- A rule is listed before another: for an earlier state, or for the same state and an
earlier key. -/
def Before (i j : Nat × κ × Rule κ δ) : Prop :=
  i.1 < j.1 ∨ i.1 = j.1 ∧ rank i.2.1 < rank j.2.1

theorem Before.asymm {i j : Nat × κ × Rule κ δ} (h : Before i j) : ¬Before j i := by
  rintro (hstate | ⟨heq, hkey⟩)
  · rcases h with hstate' | ⟨heq', -⟩
    · exact Nat.lt_asymm hstate hstate'
    · exact absurd hstate (heq' ▸ Nat.lt_irrefl _)
  · rcases h with hstate' | ⟨-, hkey'⟩
    · exact absurd hstate' (heq ▸ Nat.lt_irrefl _)
    · exact Nat.lt_asymm hkey hkey'

/-- The pairs are the state and the target of each rule whose target is not a state, in the
order of the rules. -/
def ListsUndefined (d : Draft κ δ) (pairs : List (Nat × Nat)) : Prop :=
  ∃ found : List (Nat × κ × Rule κ δ), found.Pairwise Before ∧
    (∀ state key rule, (state, key, rule) ∈ found ↔
      d.rule? state key = some rule ∧ d.size ≤ rule.target) ∧
    pairs = found.map fun i => (i.1, i.2.2.target)

theorem listsUndefined_undefinedTargets (d : Draft κ δ) :
    d.ListsUndefined d.undefinedTargets := by
  refine ⟨(List.range d.size).flatMap fun state =>
    ((d.rules state).filter fun e => d.size ≤ e.2.target).map (Prod.mk state), ?_, ?_, ?_⟩
  · refine List.pairwise_flatMap.mpr ⟨?_, ?_⟩
    · intro state _
      refine List.pairwise_map.mpr (((d.pairwise_rank_rules state).filter _).imp ?_)
      intro e e' hlt
      exact .inr ⟨rfl, hlt⟩
    · refine List.pairwise_lt_range.imp ?_
      intro state state' hlt i hi j hj
      obtain ⟨_, -, rfl⟩ := List.mem_map.mp hi
      obtain ⟨_, -, rfl⟩ := List.mem_map.mp hj
      exact .inl hlt
  · intro state key rule
    simp only [List.mem_flatMap, List.mem_range, List.mem_map, List.mem_filter,
      decide_eq_true_eq, Prod.mk.injEq]
    constructor
    · rintro ⟨_, -, _, ⟨hmem, hle⟩, rfl, rfl⟩
      exact ⟨mem_rules_iff.mp hmem, hle⟩
    · rintro ⟨hrule, hle⟩
      exact ⟨state, lt_size_of_rule? hrule, (key, rule), ⟨mem_rules_iff.mpr hrule, hle⟩,
        rfl, rfl⟩
  · rw [undefinedTargets, List.map_flatMap]
    refine congrArg (List.flatMap · _) (funext fun state => ?_)
    induction d.rules state with
    | nil => rfl
    | cons e rules ih =>
      by_cases hlt : e.2.target < d.size
      · simpa [hlt, Nat.not_le.mpr hlt] using ih
      · simpa [hlt, Nat.le_of_not_lt hlt] using ih

/-- There is only one such list. -/
theorem ListsUndefined.eq {d : Draft κ δ} {pairs pairs' : List (Nat × Nat)}
    (h : d.ListsUndefined pairs) (h' : d.ListsUndefined pairs') : pairs = pairs' := by
  obtain ⟨found, hsorted, hmem, rfl⟩ := h
  obtain ⟨found', hsorted', hmem', rfl⟩ := h'
  have hnodup : ∀ {l : List (Nat × κ × Rule κ δ)}, l.Pairwise Before → l.Nodup := by
    intro l hl
    refine hl.imp ?_
    rintro i j hij rfl
    exact hij.asymm hij
  have hperm : found.Perm found' := by
    refine (List.perm_ext_iff_of_nodup (hnodup hsorted) (hnodup hsorted')).mpr ?_
    rintro ⟨state, key, rule⟩
    rw [hmem, hmem']
  have heq : found = found' := by
    refine List.Perm.eq_of_pairwise ?_ hsorted hsorted' hperm
    intro i j _ _ hij hji
    exact absurd hji hij.asymm
  rw [heq]

omit [DecidableEq κ] in
theorem undefinedTargets_eq_nil_iff {d : Draft κ δ} : d.undefinedTargets = [] ↔ d.Closed :=
  ⟨closed_of_undefinedTargets_eq_nil, undefinedTargets_eq_nil_of_closed⟩

omit [DecidableEq κ] in
theorem rules_ne_nil_iff {d : Draft κ δ} {state : Nat} :
    d.rules state ≠ [] ↔ ∃ key rule, d.rule? state key = some rule := by
  constructor
  · intro h
    obtain ⟨⟨key, rule⟩, hmem⟩ := List.exists_mem_of_ne_nil _ h
    exact ⟨key, rule, mem_rules_iff.mp hmem⟩
  · rintro ⟨key, rule, hrule⟩ hnil
    have hmem := mem_rules_iff.mpr hrule
    rw [hnil] at hmem
    cases hmem

/-- The flaw is that of the first check the draft fails. -/
inductive FirstFlaw (d : Draft κ δ) : Flaw → Prop
  | noStates : d.size = 0 → FirstFlaw d .noStates
  | undefinedTargets {pairs : List (Nat × Nat)} : 0 < d.size → d.ListsUndefined pairs →
    pairs ≠ [] → FirstFlaw d (.undefinedTargets pairs)
  | acceptingRules {key : κ} {rule : Rule κ δ} : 0 < d.size → d.Closed →
    d.rule? (d.size - 1) key = some rule → FirstFlaw d (.acceptingRules (d.size - 1))

/-- A draft that does not make a table is refused for the first check it fails. -/
theorem build_eq_error_iff {d : Draft κ δ} {fault : Fault} :
    d.build = .error fault ↔ ∃ flaw, fault = .unsound flaw ∧ d.FirstFlaw flaw := by
  unfold build
  constructor
  · intro h
    split at h
    · next hsize => exact ⟨_, (Except.error.inj h).symm, .noStates hsize⟩
    · next hsize =>
      have hpos := Nat.pos_of_ne_zero hsize
      split at h
      · next target more htargets =>
        refine ⟨_, (Except.error.inj h).symm, .undefinedTargets hpos ?_ (List.cons_ne_nil _ _)⟩
        rw [← htargets]
        exact d.listsUndefined_undefinedTargets
      · next htargets =>
        split at h
        · next hrules =>
          obtain ⟨key, rule, hrule⟩ := rules_ne_nil_iff.mp (hrules ▸ List.cons_ne_nil _ _)
          exact ⟨_, (Except.error.inj h).symm,
            .acceptingRules hpos (undefinedTargets_eq_nil_iff.mp htargets) hrule⟩
        · cases h
  · rintro ⟨flaw, rfl, hflaw⟩
    cases hflaw with
    | noStates hsize => rw [dif_pos hsize]
    | undefinedTargets hpos hlists hne =>
      have htargets := d.listsUndefined_undefinedTargets.eq hlists
      rw [dif_neg (Nat.ne_of_gt hpos)]
      split
      · next target more hcons => rw [← hcons, htargets]
      · next hnil => exact absurd (htargets.symm.trans hnil) hne
    | acceptingRules hpos hclosed hrule =>
      have hnil := undefinedTargets_eq_nil_iff.mpr hclosed
      have hrules := rules_ne_nil_iff.mpr ⟨_, _, hrule⟩
      rw [dif_neg (Nat.ne_of_gt hpos)]
      split
      · next hcons => cases hnil.symm.trans hcons
      · split
        · rfl
        · next hlast => exact absurd hlast hrules

omit [DecidableEq κ] in
/-- A draft makes a table exactly if it passes the three checks. -/
theorem exists_build_iff {d : Draft κ δ} :
    (∃ t, d.build = .ok t) ↔
      0 < d.size ∧ d.Closed ∧ ∀ key, d.rule? (d.size - 1) key = none := by
  constructor
  · rintro ⟨t, ht⟩
    obtain rfl := toDraft_of_build_eq_ok ht
    exact ⟨t.size_pos, t.closed, t.accepting_rule?⟩
  · rintro ⟨hpos, hclosed, hlast⟩
    obtain ⟨t, ht, -⟩ := exists_build_eq_ok hpos hclosed hlast
    exact ⟨t, ht⟩

end TapeReduction.Draft
