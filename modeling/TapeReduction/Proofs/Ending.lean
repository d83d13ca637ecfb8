import TapeReduction.Proofs.EndlessTape

/-!
# How a machine ends from where it is

How a machine halts from a state and tapes on does not depend on the steps it has made
before.  So the end of a run can be told backwards: if a rule leads to where the
machine ends in some way, it ends in this way from where the rule was found.

Machines on endless tapes end as those do that keep a finite part.  The tapes met on
the way of a machine with two tapes are lists with a head somewhere, and a rule moves
the heads, and writes a symbol that is there already or one right behind the list.
-/

namespace TapeReduction

namespace Table

variable {κ δ σ τ : Type} [Alphabet κ] [Tapes σ κ δ] [Tapes τ κ δ] {t : Table κ δ}

/-- From a state and tapes on the machine halts with a verdict, however many steps it has
made before. -/
def EndsWith (t : Table κ δ) (state : Nat) (tapes : σ) (v : Verdict) : Prop :=
  ∀ steps, t.HaltsWith ⟨state, tapes, steps, none⟩ v

theorem haltsWith_of_step {c : Config σ} {v : Verdict} (h : t.HaltsWith (t.step c) v) :
    t.HaltsWith c v := by
  obtain ⟨n, hn⟩ := h
  exact ⟨n + 1, hn⟩

section Rules

variable {state : Nat} {tapes : σ} {rule : Rule κ δ} {v : Verdict}

theorem endsWith_of_rule
    (hrule : t.rule? state (Tapes.scan (Tapes.settle tapes)) = some rule)
    (hne : rule.target ≠ t.accepting)
    (h : t.EndsWith rule.target (Tapes.act rule.write rule.move (Tapes.settle tapes)) v) :
    t.EndsWith state tapes v := by
  intro steps
  apply haltsWith_of_step
  rw [t.step_of_rule?_eq_some rfl hrule, verdictAt, if_neg hne]
  exact h (steps + 1)

theorem endsWith_accept
    (hrule : t.rule? state (Tapes.scan (Tapes.settle tapes)) = some rule)
    (htarget : rule.target = t.accepting) :
    t.EndsWith state tapes (.accept t.accepting) := by
  intro steps
  refine ⟨1, ?_⟩
  rw [Function.iterate_one, t.step_of_rule?_eq_some rfl hrule, verdictAt, if_pos htarget, htarget]

theorem endsWith_reject
    (hrule : t.rule? state (Tapes.scan (Tapes.settle tapes)) = none) :
    t.EndsWith state tapes .reject := by
  intro steps
  refine ⟨1, ?_⟩
  rw [Function.iterate_one, t.step_of_rule?_eq_none rfl hrule]

end Rules

/-- A machine halts as the one does that it looks like, if nothing has to be settled on the
tapes of that one. -/
theorem haltsWith_map_iff {view : σ → τ} (hview : Faithful view)
    (hsettled : Faithful (id : τ → τ)) (c : Config σ) (v : Verdict) :
    t.HaltsWith (c.map view) v ↔ t.HaltsWith c v := by
  have hstep : ∀ d : Config τ, t.step d = t.endlessStep d := map_step t hsettled
  refine exists_congr fun n => ?_
  have hrun := map_iterate_step t hview c n
  rw [← funext hstep] at hrun
  rw [← hrun]
  exact Iff.rfl

end Table

/-! ## Lists on endless tapes -/

/-- The position a head moves to. -/
def Move.next (m : Move) (head : Nat) : Nat :=
  match m with
  | .left => head - 1
  | .right => head + 1

namespace EndlessTape

variable {α : Type} (blank : α)

/-- An endless tape with content from its first position on and its head at a position. -/
def headAt (cells : List α) (head : Nat) : EndlessTape α :=
  ⟨fun position => cells.getD position blank, head⟩

variable {blank} {cells : List α} {i : Nat} {a : α}

/-- Writing what is there moves the head only. -/
theorem overwrite_headAt_of_getD (h : cells.getD i blank = a) (m : Move) :
    (headAt blank cells i).overwrite a m = headAt blank cells (m.next i) := by
  apply congrArg₂ EndlessTape.mk
  · funext position
    by_cases hposition : position = i
    · rw [hposition]
      exact (if_pos rfl).trans h.symm
    · exact if_neg hposition
  · cases m with
    | left => rfl
    | right => rfl

/-- Writing right behind the content adds to it. -/
theorem overwrite_headAt_length (cells : List α) (a : α) (m : Move) :
    (headAt blank cells cells.length).overwrite a m =
      headAt blank (cells ++ [a]) (m.next cells.length) := by
  apply congrArg₂ EndlessTape.mk
  · funext position
    by_cases hposition : position = cells.length
    · rw [hposition]
      exact (if_pos rfl).trans (by simp)
    · refine (if_neg hposition).trans ?_
      simp only [headAt, List.getD_eq_getElem?_getD, List.getElem?_append]
      split
      · rfl
      · next hle =>
        rw [List.getElem?_eq_none (Nat.le_of_not_lt hle), List.getElem?_eq_none]
        rw [List.length_singleton]
        omega
  · cases m with
    | left => rfl
    | right => rfl

end EndlessTape

/-! ## Two-tape machines on lists -/

/-- Two endless tapes with content from their first positions on. -/
def onLists (first : List Symbol) (i : Nat) (second : List Symbol) (j : Nat) :
    EndlessTape Symbol × EndlessTape Symbol :=
  (.headAt .blank first i, .headAt .blank second j)

namespace TwoTapeTable

variable {t : TwoTapeTable} {state target i j : Nat} {x y : List Symbol} {a b : Symbol}
  {move : Move × Move} {v : Verdict}

/-- A rule that writes what it reads. -/
theorem endsWith_of_pass (hfirst : x.getD i .blank = a) (hsecond : y.getD j .blank = b)
    (hrule : t.rule? state (a, b) = some ⟨target, (a, b), move⟩) (hne : target ≠ t.accepting)
    (h : t.EndsWith target (onLists x (move.1.next i) y (move.2.next j)) v) :
    t.EndsWith state (onLists x i y j) v := by
  subst hfirst
  subst hsecond
  refine Table.endsWith_of_rule hrule hne ?_
  have hact : Tapes.act (x.getD i .blank, y.getD j .blank) move (onLists x i y j) =
      onLists x (move.1.next i) y (move.2.next j) :=
    congrArg₂ Prod.mk (EndlessTape.overwrite_headAt_of_getD rfl _)
      (EndlessTape.overwrite_headAt_of_getD rfl _)
  exact hact ▸ h

/-- A rule that reads the blank behind the second list and writes a symbol there. -/
theorem endsWith_of_extend (hfirst : x.getD i .blank = a)
    (hrule : t.rule? state (a, .blank) = some ⟨target, (a, b), move⟩)
    (hne : target ≠ t.accepting)
    (h : t.EndsWith target (onLists x (move.1.next i) (y ++ [b]) (move.2.next y.length)) v) :
    t.EndsWith state (onLists x i y y.length) v := by
  subst hfirst
  have hsecond : y.getD y.length .blank = .blank := by
    simp
  have hrule' : t.rule? state (x.getD i .blank, y.getD y.length .blank) =
      some ⟨target, (x.getD i .blank, b), move⟩ := by
    rw [hsecond, hrule]
  refine Table.endsWith_of_rule hrule' hne ?_
  have hact : Tapes.act (x.getD i .blank, b) move (onLists x i y y.length) =
      onLists x (move.1.next i) (y ++ [b]) (move.2.next y.length) :=
    congrArg₂ Prod.mk (EndlessTape.overwrite_headAt_of_getD rfl _)
      (EndlessTape.overwrite_headAt_length y b _)
  exact hact ▸ h

theorem endsWith_of_accept {rule : Rule (Symbol × Symbol) (Move × Move)}
    (hfirst : x.getD i .blank = a) (hsecond : y.getD j .blank = b)
    (hrule : t.rule? state (a, b) = some rule) (htarget : rule.target = t.accepting) :
    t.EndsWith state (onLists x i y j) (.accept t.accepting) := by
  subst hfirst
  subst hsecond
  exact Table.endsWith_accept hrule htarget

theorem endsWith_of_no_rule (hfirst : x.getD i .blank = a) (hsecond : y.getD j .blank = b)
    (hrule : t.rule? state (a, b) = none) : t.EndsWith state (onLists x i y j) .reject := by
  subst hfirst
  subst hsecond
  exact Table.endsWith_reject hrule

/-- A machine loaded with two lists halts as it does on endless tapes. -/
theorem haltsWith_of_endsWith {first second : List Symbol}
    (h : t.EndsWith 0 (onLists first 0 second 0) v) :
    t.HaltsWith (.twoTapes first second) v := by
  have hview : Faithful (Prod.map Tape.endless Tape.endless :
      TwoTapes → EndlessTape Symbol × EndlessTape Symbol) :=
    Tape.faithful_endless.prod Tape.faithful_endless
  have hsettled : Faithful (id : EndlessTape Symbol × EndlessTape Symbol → _) :=
    ⟨fun _ => rfl, fun _ => rfl, fun _ _ _ => rfl⟩
  rw [← Table.haltsWith_map_iff hview hsettled]
  have hload : (Config.twoTapes first second).map (Prod.map Tape.endless Tape.endless) =
      ⟨0, onLists first 0 second 0, 0, none⟩ := by
    simp only [Config.twoTapes, Config.load, Config.map, Prod.map_apply, Tape.endless_ofList]
    rfl
  rw [hload]
  exact h 0

end TwoTapeTable

end TapeReduction
