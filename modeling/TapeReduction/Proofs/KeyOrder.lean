import TapeReduction.Proofs.Drafting
import TapeReduction.Reduction.Role

/-!
# The order of keys

The members of an alphabet are listed in ascending order, and the place of a key on
that list is its rank.  For symbols and cells the ranks are their numbers; for pairs
the first part decides, then the second.  The rules of a state are listed in the
order of the ranks of their keys.
-/

namespace TapeReduction

namespace Alphabet

variable {κ ι : Type} [DecidableEq κ] [Alphabet κ] [DecidableEq ι] [Alphabet ι]

/-- The place of a key in the ascending order of its alphabet. -/
def rank (key : κ) : Nat :=
  members.idxOf key

theorem getElem?_rank (key : κ) : (members : List κ)[rank key]? = some key := by
  have hlt : rank key < (members : List κ).length :=
    List.idxOf_lt_length_of_mem (mem_members key)
  rw [List.getElem?_eq_getElem hlt]
  exact congrArg some (List.getElem_idxOf hlt)

theorem rank_injective : Function.Injective (rank : κ → Nat) := by
  intro key key' h
  have hkey := getElem?_rank key
  rw [h, getElem?_rank] at hkey
  exact (Option.some.inj hkey).symm

/-- A relation that holds between every two members in their order holds of keys in ascending
order. -/
theorem of_rank_lt {r : κ → κ → Prop} (h : (members : List κ).Pairwise r) {key key' : κ}
    (hlt : rank key < rank key') : r key key' := by
  obtain ⟨hi, hkey⟩ := List.getElem?_eq_some_iff.mp (getElem?_rank key)
  obtain ⟨hj, hkey'⟩ := List.getElem?_eq_some_iff.mp (getElem?_rank key')
  rw [← hkey, ← hkey']
  exact List.pairwise_iff_getElem.mp h _ _ hi hj hlt

/-- A relation that never holds both ways, and holds between every two members in their
order, is that order. -/
theorem rank_lt_iff {r : κ → κ → Prop} (h : (members : List κ).Pairwise r)
    (hasymm : ∀ key key', r key key' → ¬r key' key) {key key' : κ} :
    rank key < rank key' ↔ r key key' := by
  refine ⟨of_rank_lt h, ?_⟩
  intro hr
  rcases Nat.lt_trichotomy (rank key) (rank key') with hlt | heq | hlt
  · exact hlt
  · rw [rank_injective heq] at hr
    exact absurd hr (hasymm _ _ hr)
  · exact absurd (of_rank_lt h hlt) (hasymm _ _ hr)

theorem pairwise_members : (members : List κ).Pairwise fun key key' => rank key < rank key' := by
  rw [List.pairwise_iff_getElem]
  intro i j hi hj hij
  rw [rank, rank, nodup_members.idxOf_getElem i hi, nodup_members.idxOf_getElem j hj]
  exact hij

theorem rank_symbol (s : Symbol) : rank s = Reduction.symbolIndex s := by
  cases s <;> rfl

theorem rank_cell (c : Cell) : rank c = Reduction.cellIndex c := by
  rcases c with s | s | _
  · cases s <;> rfl
  · cases s <;> rfl
  · rfl

/-- Pairs are ordered by their first parts, and by their second parts if these are equal. -/
theorem rank_pair_lt_iff {p q : κ × ι} :
    rank p < rank q ↔ rank p.1 < rank q.1 ∨ p.1 = q.1 ∧ rank p.2 < rank q.2 := by
  have hmembers : (members : List (κ × ι)).Pairwise fun p q =>
      rank p.1 < rank q.1 ∨ p.1 = q.1 ∧ rank p.2 < rank q.2 := by
    refine List.pairwise_flatMap.mpr ⟨?_, ?_⟩
    · intro key _
      refine List.pairwise_map.mpr (pairwise_members.imp ?_)
      intro b b' hlt
      exact .inr ⟨rfl, hlt⟩
    · refine pairwise_members.imp ?_
      intro key key' hlt p hp q hq
      obtain ⟨_, -, rfl⟩ := List.mem_map.mp hp
      obtain ⟨_, -, rfl⟩ := List.mem_map.mp hq
      exact .inl hlt
  apply rank_lt_iff hmembers
  rintro p q (hfirst | ⟨heq, hsecond⟩) (hfirst' | ⟨heq', hsecond'⟩)
  · exact absurd hfirst' (Nat.lt_asymm hfirst)
  · exact absurd hfirst (heq' ▸ Nat.lt_irrefl _)
  · exact absurd hfirst' (heq ▸ Nat.lt_irrefl _)
  · exact absurd hsecond' (Nat.lt_asymm hsecond)

end Alphabet

open Alphabet (rank)

/-- The rules of a state are in ascending order of their keys. -/
theorem Draft.pairwise_rank_rules {κ δ : Type} [DecidableEq κ] [Alphabet κ]
    (d : Draft κ δ) (state : Nat) :
    (d.rules state).Pairwise fun e e' => rank e.1 < rank e'.1 :=
  d.pairwise_rules_of_members Alphabet.pairwise_members state

end TapeReduction
