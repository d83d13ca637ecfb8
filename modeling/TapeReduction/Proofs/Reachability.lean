import Mathlib.Logic.Relation
import TapeReduction.Table.Reachability

/-!
# What the search for reachable states finds

A rule leads from its state to its target, and rules one behind the other make a
path.  The search finds exactly the states to which a path leads from state 0.

It keeps two kinds of states: those marked and those pending.  Nothing gets a mark
but what a path from a pending state leads to.  Conversely a state that gets its
mark leaves its targets marked or pending, and nothing that is pending stays without
a mark, so in the end the marks are closed under the rules.
-/

namespace TapeReduction.Table

variable {κ δ : Type} [Alphabet κ] (t : Table κ δ)

/-- Some rule leads from a state to another. -/
def Leads (state next : Nat) : Prop :=
  ∃ key rule, t.rule? state key = some rule ∧ rule.target = next

/-- A path of rules leads from a state to another. -/
def Connects (state last : Nat) : Prop :=
  Relation.ReflTransGen t.Leads state last

variable {t}

theorem mem_targets_iff {state next : Nat} : next ∈ t.targets state ↔ t.Leads state next := by
  constructor
  · intro h
    obtain ⟨⟨key, rule⟩, hmem, htarget⟩ := List.mem_map.mp h
    exact ⟨key, rule, Draft.mem_rules_iff.mp hmem, htarget⟩
  · rintro ⟨key, rule, hrule, htarget⟩
    exact List.mem_map.mpr ⟨(key, rule), Draft.mem_rules_iff.mpr hrule, htarget⟩

/-- What a state leaves pending is a target of it without a mark. -/
theorem mem_unmarkedTargets_iff {marked : Array Bool} {state next : Nat} :
    next ∈ t.unmarkedTargets marked state ↔ t.Leads state next ∧ marked[next]? = some false := by
  rw [unmarkedTargets, List.mem_reverse, List.mem_filter, mem_targets_iff, decide_eq_true_eq]

theorem Leads.lt_size {state next : Nat} (h : t.Leads state next) : next < t.size := by
  obtain ⟨key, rule, hrule, rfl⟩ := h
  exact t.closed state key rule hrule

/-- No path goes on from the accepting state. -/
theorem Leads.lt_accepting {state next : Nat} (h : t.Leads state next) :
    state < t.accepting := by
  obtain ⟨key, rule, hrule, -⟩ := h
  have hlt := Draft.lt_size_of_rule? hrule
  have hne : state ≠ t.accepting := by
    rintro rfl
    rw [t.accepting_rule? key] at hrule
    cases hrule
  unfold Draft.accepting at hne ⊢
  omega

theorem Connects.lt_size {state last : Nat} (h : t.Connects state last) (hlt : state < t.size) :
    last < t.size := by
  cases h with
  | refl => exact hlt
  | tail _ hlead => exact hlead.lt_size

/-! ## One search -/

variable (t) {marked : Array Bool} {pending : List Nat}

/-- Setting a mark changes no other. -/
theorem getElem?_mark_iff {state s : Nat} (h : marked[state]? = some false) :
    (marked.setIfInBounds state true)[s]? = some true ↔ s = state ∨ marked[s]? = some true := by
  obtain ⟨hlt, -⟩ := Array.getElem?_eq_some_iff.mp h
  by_cases hs : s = state
  · simp [hs, hlt]
  · simp [hs, Array.getElem?_setIfInBounds_ne (Ne.symm hs)]

/-- A mark is never taken away. -/
theorem visit_of_marked {s : Nat} (h : marked[s]? = some true) :
    (t.visit marked pending)[s]? = some true := by
  fun_induction visit t marked pending with
  | case1 marked => exact h
  | case2 marked state rest hmark ih => exact ih ((getElem?_mark_iff hmark).mpr (.inr h))
  | case3 marked state rest _ ih => exact ih h

theorem getElem?_eq_some_true {s : Nat} (hlt : s < marked.size) (h : marked[s]? ≠ some false) :
    marked[s]? = some true := by
  rw [Array.getElem?_eq_getElem hlt] at h ⊢
  cases hvalue : marked[s] with
  | false => exact absurd (congrArg some hvalue) h
  | true => rfl

/-- Every pending state gets a mark. -/
theorem visit_of_pending {s : Nat} (hmem : s ∈ pending) (hlt : s < marked.size) :
    (t.visit marked pending)[s]? = some true := by
  fun_induction visit t marked pending with
  | case1 marked => cases hmem
  | case2 marked state rest hmark ih =>
    rcases List.mem_cons.mp hmem with rfl | hmem
    · exact visit_of_marked t ((getElem?_mark_iff hmark).mpr (.inl rfl))
    · apply ih
      · exact List.mem_append_right _ hmem
      · rwa [Array.size_setIfInBounds]
  | case3 marked state rest hmark ih =>
    rcases List.mem_cons.mp hmem with rfl | hmem
    · -- The state is one of the states, and its mark is not missing.
      exact visit_of_marked t (getElem?_eq_some_true hlt hmark)
    · exact ih hmem hlt

/-- A state that gets its mark in a search has all its targets marked in the end. -/
theorem visit_of_leads {s next : Nat} (hvisit : (t.visit marked pending)[s]? = some true)
    (hlead : t.Leads s next) (hlt : next < marked.size) :
    marked[s]? = some true ∨ (t.visit marked pending)[next]? = some true := by
  fun_induction visit t marked pending with
  | case1 marked => exact .inl hvisit
  | case2 marked state rest hmark ih =>
    have hlt' : next < (marked.setIfInBounds state true).size := by
      rwa [Array.size_setIfInBounds]
    rcases ih hvisit hlt' with hs | hnext
    · rcases (getElem?_mark_iff hmark).mp hs with rfl | hs
      · by_cases hnext : (marked.setIfInBounds s true)[next]? = some false
        · have hpending := mem_unmarkedTargets_iff.mpr ⟨hlead, hnext⟩
          exact .inr (visit_of_pending t (List.mem_append_left _ hpending) hlt')
        · exact .inr (visit_of_marked t (getElem?_eq_some_true hlt' hnext))
      · exact .inl hs
    · exact .inr hnext
  | case3 marked state rest _ ih => exact ih hvisit hlt

/-- A path from a pending state leads to every state that gets its mark in a search. -/
theorem connects_of_visit {s : Nat} (hvisit : (t.visit marked pending)[s]? = some true) :
    marked[s]? = some true ∨ ∃ p ∈ pending, t.Connects p s := by
  fun_induction visit t marked pending with
  | case1 marked => exact .inl hvisit
  | case2 marked state rest hmark ih =>
    rcases ih hvisit with hs | ⟨p, hp, hpath⟩
    · rcases (getElem?_mark_iff hmark).mp hs with rfl | hs
      · exact .inr ⟨s, List.mem_cons_self .., .refl⟩
      · exact .inl hs
    · rcases List.mem_append.mp hp with hp | hp
      · have hlead := (mem_unmarkedTargets_iff.mp hp).1
        exact .inr ⟨state, List.mem_cons_self .., .head hlead hpath⟩
      · exact .inr ⟨p, List.mem_cons_of_mem _ hp, hpath⟩
  | case3 marked state rest _ ih =>
    rcases ih hvisit with hs | ⟨p, hp, hpath⟩
    · exact .inl hs
    · exact .inr ⟨p, List.mem_cons_of_mem _ hp, hpath⟩

/-! ## The search from state 0 -/

theorem reachMarks_iff (s : Nat) : t.reachMarks[s]? = some true ↔ t.Connects 0 s := by
  have hfresh (s : Nat) : (Array.replicate t.size false)[s]? ≠ some true := by
    simp [Array.getElem?_replicate]
  constructor
  · intro h
    rcases connects_of_visit t h with hs | ⟨p, hp, hpath⟩
    · exact absurd hs (hfresh s)
    · obtain rfl := List.mem_singleton.mp hp
      exact hpath
  · intro h
    induction h with
    | refl =>
      apply visit_of_pending
      · exact List.mem_singleton_self 0
      · simpa using t.size_pos
    | @tail s next _ hlead ih =>
      have hlt : next < (Array.replicate t.size false).size := by
        simpa using hlead.lt_size
      exact (visit_of_leads t ih hlead hlt).resolve_left (hfresh s)

theorem getD_reachMarks_iff (s : Nat) : t.reachMarks[s]?.getD false = true ↔ t.Connects 0 s := by
  rw [← reachMarks_iff, Option.getD_eq_iff]
  simp

variable {t}

/-- The reachable states are those to which a path leads from state 0. -/
theorem mem_reachable_iff {s : Nat} : s ∈ t.reachable ↔ t.Connects 0 s := by
  rw [reachable, List.mem_filter, List.mem_range, getD_reachMarks_iff]
  exact and_iff_right_of_imp fun h => h.lt_size t.size_pos

/-- The unreachable states are the others. -/
theorem mem_unreachable_iff {s : Nat} : s ∈ t.unreachable ↔ s < t.size ∧ ¬t.Connects 0 s := by
  rw [unreachable, List.mem_filter, List.mem_range, ← getD_reachMarks_iff]
  simp

end TapeReduction.Table
