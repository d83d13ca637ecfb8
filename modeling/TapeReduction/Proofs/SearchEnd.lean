import Mathlib.Data.List.Nodup
import Mathlib.Logic.Function.Iterate
import TapeReduction.Proofs.Reachability

/-!
# The end of the search for reachable states

The search goes round by round: it takes the first pending state and, unless that
has its mark already, marks it and puts its unmarked targets in front of the others.
A state may be pending many times over, and rules may lead in circles.  Still each
state leaves its targets pending only once, so no more states are ever pending than
there are rules, and the first one.  This bounds the rounds.
-/

namespace TapeReduction.Table

variable {κ δ : Type} [Alphabet κ] (t : Table κ δ)

/-- One round of the search, on the marks and the pending states.  Nothing happens when no
state is pending. -/
def round : Array Bool × List Nat → Array Bool × List Nat
  | (marked, []) => (marked, [])
  | (marked, state :: rest) =>
    match marked[state]? with
    | some false =>
      (marked.setIfInBounds state true,
        t.unmarkedTargets (marked.setIfInBounds state true) state ++ rest)
    | _ => (marked, rest)

/-- The states without a mark. -/
def unmarked (marked : Array Bool) : List Nat :=
  (List.range t.size).filter fun state => marked[state]? = some false

/-- The number of rules of the states without a mark. -/
def unmarkedRules (marked : Array Bool) : Nat :=
  ((t.unmarked marked).flatMap t.rules).length

/-- In the beginning no state has a mark. -/
theorem unmarkedRules_replicate :
    t.unmarkedRules (Array.replicate t.size false) = t.ruleCount := by
  have hall : t.unmarked (Array.replicate t.size false) = List.range t.size := by
    rw [unmarked, List.filter_eq_self]
    intro state hstate
    simpa [Array.getElem?_replicate] using hstate
  rw [unmarkedRules, hall]
  rfl

variable {t} {marked : Array Bool} {state : Nat}

theorem mem_unmarked_iff {s : Nat} :
    s ∈ t.unmarked marked ↔ s < t.size ∧ marked[s]? = some false := by
  rw [unmarked, List.mem_filter, List.mem_range, decide_eq_true_eq]

theorem nodup_unmarked (t : Table κ δ) (marked : Array Bool) : (t.unmarked marked).Nodup :=
  List.nodup_range.filter _

/-- A state that gets its mark is one state less without a mark. -/
theorem unmarked_perm (hlt : state < t.size) (h : marked[state]? = some false) :
    (t.unmarked marked).Perm (state :: t.unmarked (marked.setIfInBounds state true)) := by
  obtain ⟨hbound, -⟩ := Array.getElem?_eq_some_iff.mp h
  have hself : (marked.setIfInBounds state true)[state]? = some true := by
    simp [hbound]
  refine (List.perm_ext_iff_of_nodup (nodup_unmarked t _) ?_).mpr ?_
  · refine List.nodup_cons.mpr ⟨?_, nodup_unmarked t _⟩
    intro hmem
    rw [mem_unmarked_iff, hself] at hmem
    exact absurd hmem.2 (by simp)
  · intro s
    rw [List.mem_cons, mem_unmarked_iff, mem_unmarked_iff]
    by_cases hs : s = state
    · simp [hs, hlt, h]
    · rw [Array.getElem?_setIfInBounds_ne (Ne.symm hs)]
      simp [hs]

/-- A state that gets its mark takes its rules from those of the states without a mark. -/
theorem unmarkedRules_mark (hlt : state < t.size) (h : marked[state]? = some false) :
    t.unmarkedRules marked =
      (t.rules state).length + t.unmarkedRules (marked.setIfInBounds state true) := by
  have hperm := (unmarked_perm hlt h).flatMap_right t.rules
  rw [unmarkedRules, hperm.length_eq, List.flatMap_cons, List.length_append]
  rfl

theorem length_unmarkedTargets_le (t : Table κ δ) (marked : Array Bool) (state : Nat) :
    (t.unmarkedTargets marked state).length ≤ (t.rules state).length := by
  have htargets : (t.targets state).length = (t.rules state).length := List.length_map ..
  rw [unmarkedTargets, List.length_reverse, ← htargets]
  exact List.length_filter_le _ _

/-- Rounds lead to the end of a search.  There are at most as many of them as states are
pending and rules belong to states without a mark. -/
theorem exists_rounds (t : Table κ δ) (marked : Array Bool) (pending : List Nat)
    (hsize : marked.size = t.size) :
    ∃ n ≤ pending.length + t.unmarkedRules marked,
      t.round^[n] (marked, pending) = (t.visit marked pending, []) := by
  fun_induction visit t marked pending with
  | case1 marked => exact ⟨0, Nat.zero_le _, rfl⟩
  | case2 marked state rest hmark ih =>
    obtain ⟨n, hn, hrounds⟩ := ih (by rwa [Array.size_setIfInBounds])
    have hlt : state < t.size := by
      rw [← hsize]
      exact (Array.getElem?_eq_some_iff.mp hmark).1
    have hrules := unmarkedRules_mark hlt hmark
    have htargets := length_unmarkedTargets_le t (marked.setIfInBounds state true) state
    refine ⟨n + 1, ?_, ?_⟩
    · rw [List.length_append] at hn
      rw [List.length_cons]
      omega
    · rw [Function.iterate_succ_apply, round, hmark]
      exact hrounds
  | case3 marked state rest hmark ih =>
    obtain ⟨n, hn, hrounds⟩ := ih hsize
    refine ⟨n + 1, ?_, ?_⟩
    · rw [List.length_cons]
      omega
    · have hround : t.round (marked, state :: rest) = (marked, rest) := by
        rw [round]
        split
        · next h => exact absurd h hmark
        · rfl
      rw [Function.iterate_succ_apply, hround]
      exact hrounds

theorem pairwise_reachable (t : Table κ δ) : t.reachable.Pairwise (· < ·) :=
  List.pairwise_lt_range.filter _

theorem pairwise_unreachable (t : Table κ δ) : t.unreachable.Pairwise (· < ·) :=
  List.pairwise_lt_range.filter _

/-- The search from state 0 ends after at most one round more than there are rules, with the
marks of the reachable states.  These are the states to which a path of rules leads from
state 0, and the unreachable states are the others; both are listed in ascending order. -/
theorem search_ends_with_reachable_states (t : Table κ δ) :
    (∃ n ≤ t.ruleCount + 1,
      t.round^[n] (Array.replicate t.size false, [0]) = (t.reachMarks, [])) ∧
    t.reachable.Pairwise (· < ·) ∧
    (∀ s, s ∈ t.reachable ↔ t.reachMarks[s]? = some true) ∧
    (∀ s, s ∈ t.reachable ↔ t.Connects 0 s) ∧
    t.unreachable.Pairwise (· < ·) ∧
    ∀ s, s ∈ t.unreachable ↔ s < t.size ∧ ¬t.Connects 0 s := by
  refine ⟨?_, t.pairwise_reachable, ?_, ?_, t.pairwise_unreachable, ?_⟩
  · obtain ⟨n, hn, hrounds⟩ :=
      exists_rounds t (Array.replicate t.size false) [0] (Array.size_replicate ..)
    rw [unmarkedRules_replicate, List.length_singleton, Nat.add_comm] at hn
    exact ⟨n, hn, hrounds⟩
  · intro s
    rw [mem_reachable_iff, reachMarks_iff]
  · intro s
    exact mem_reachable_iff
  · intro s
    exact mem_unreachable_iff

end TapeReduction.Table
