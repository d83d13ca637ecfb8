import TapeReduction.Table.Basic

/-!
# Reachable states

The states a machine can enter from state 0 when nothing is known of its
tapes.  The search keeps a list of states still to visit, the last one found
first, which may name a state more than once; it ends because each round either
marks a state for the first time or shortens the list.
-/

namespace TapeReduction.Table

/-- Marking a state for the first time leaves fewer states without a mark. -/
theorem count_false_mark_lt {marked : Array Bool} {state : Nat}
    (h : marked[state]? = some false) :
    (marked.setIfInBounds state true).count false < marked.count false := by
  obtain ⟨hlt, hget⟩ := Array.getElem?_eq_some_iff.mp h
  have hpos : 0 < marked.count false :=
    Array.count_pos_iff.mpr (hget ▸ Array.getElem_mem hlt)
  rw [Array.setIfInBounds_def, dif_pos hlt, Array.count_set hlt]
  simp only [hget, beq_self_eq_true, if_true, Bool.true_beq, Bool.false_eq_true, if_false]
  omega

variable {κ δ : Type} [Alphabet κ]

/-- The states the rules of a state lead to. -/
def targets (t : Table κ δ) (state : Nat) : List Nat :=
  (t.rules state).map fun entry => entry.2.target

/-- The targets of a state that have no mark yet, the last one first. -/
def unmarkedTargets (t : Table κ δ) (marked : Array Bool) (state : Nat) : List Nat :=
  ((t.targets state).filter fun next => marked[next]? = some false).reverse

/-- Marks every state that can be entered from the states on the list. -/
def visit (t : Table κ δ) (marked : Array Bool) : List Nat → Array Bool
  | [] => marked
  | state :: rest =>
    match _hmark : marked[state]? with
    | some false =>
      visit t (marked.setIfInBounds state true)
        (t.unmarkedTargets (marked.setIfInBounds state true) state ++ rest)
    | _ => visit t marked rest
termination_by pending => (marked.count false, pending.length)
decreasing_by
  · exact Prod.Lex.left _ _ (count_false_mark_lt _hmark)
  · exact Prod.Lex.right _ (Nat.lt_succ_self _)

/-- A mark for each state: whether it can be entered from state 0. -/
def reachMarks (t : Table κ δ) : Array Bool :=
  t.visit (Array.replicate t.size false) [0]

/-- The states that can be entered from state 0, in ascending order. -/
def reachable (t : Table κ δ) : List Nat :=
  let marks := t.reachMarks
  (List.range t.size).filter fun state => marks[state]?.getD false

/-- The states that cannot be entered from state 0, in ascending order. -/
def unreachable (t : Table κ δ) : List Nat :=
  let marks := t.reachMarks
  (List.range t.size).filter fun state => !marks[state]?.getD false

end TapeReduction.Table
