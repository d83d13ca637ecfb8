import Mathlib.Data.Finset.Lattice.Fold
import Mathlib.Order.Lattice.Nat
import TapeReduction.Proofs.Run

/-!
# Machines on endless tapes

On paper a tape is a function from positions to symbols, and nothing of it has to
be kept.  A machine that keeps a finite part of its tapes goes through the same
states as the machine on paper: what is kept agrees with the tape on paper, and
everything beyond is blank there.

The view of the kept part as an endless tape commutes with one step, and so with
a whole run.  How much is kept after a run is the loaded content, or more if a
head was beyond it when the machine was told to step.
-/

namespace TapeReduction

/-! ## The machine on paper -/

/-- A tape without a last cell: what is at each position, and where the head is. -/
structure EndlessTape (α : Type) where
  content : Nat → α
  head : Nat

namespace EndlessTape

variable {α : Type}

/-- An endless tape with content from its first position on, blank behind it. -/
def ofList (blank : α) (cells : List α) : EndlessTape α :=
  ⟨fun position => cells.getD position blank, 0⟩

/-- The tape with the position of the head overwritten and the head moved.  At the first
position there is nothing on the left to move to. -/
def overwrite (a : α) (m : Move) (e : EndlessTape α) : EndlessTape α where
  content position := if position = e.head then a else e.content position
  head :=
    match m with
    | .left => e.head - 1
    | .right => e.head + 1

instance : Tapes (EndlessTape α) α Move where
  settle e := e
  scan e := e.content e.head
  act := overwrite

end EndlessTape

section Definitions

variable {κ δ τ : Type} [Alphabet κ] [Tapes τ κ δ]

/-- One step of a machine on endless tapes.  A machine that has halted stays as it is, one
without a rule for what it reads rejects, and one that comes to the last state accepts. -/
def Table.endlessStep (t : Table κ δ) (c : Config τ) : Config τ :=
  if c.halted.isSome then c
  else
    match t.rule? c.state (Tapes.scan c.tapes) with
    | none => { c with halted := some .reject }
    | some rule =>
      { state := rule.target
        tapes := Tapes.act rule.write rule.move c.tapes
        steps := c.steps + 1
        halted := if rule.target + 1 = t.size then some (.accept rule.target) else none }

/-- One more than the largest position at which a head was when a machine that had not
halted was told to step, over the first `n` times; zero if there was no such time. -/
def reach (run : Nat → Config τ) (head : τ → Nat) (n : Nat) : Nat :=
  ((Finset.range n).filter fun k => (run k).halted = none).sup fun k => head (run k).tapes + 1

end Definitions

/-! ## Views of tapes -/

/-- A machine with other tapes, the same in everything else. -/
def Config.map {σ τ : Type} (view : σ → τ) (c : Config σ) : Config τ :=
  ⟨c.state, view c.tapes, c.steps, c.halted⟩

section Views

variable {κ δ σ τ μ ε ρ υ : Type} [Tapes σ κ δ] [Tapes τ κ δ] [Tapes ρ μ ε] [Tapes υ μ ε]

/-- A view of tapes that keeps what can be read from them and commutes with what is done to
them. -/
structure Faithful (view : σ → τ) : Prop where
  view_settle : ∀ s, view (Tapes.settle s) = view s
  scan_view : ∀ s, Tapes.scan (view s) = Tapes.scan (Tapes.settle s)
  view_act : ∀ key m s, view (Tapes.act key m s) = Tapes.act key m (view s)

/-- Views of two collections of tapes make a view of both side by side. -/
theorem Faithful.prod {view : σ → τ} {view' : ρ → υ} (h : Faithful view)
    (h' : Faithful view') : Faithful (Prod.map view view') := by
  constructor
  · rintro ⟨s, r⟩
    exact congrArg₂ Prod.mk (h.view_settle s) (h'.view_settle r)
  · rintro ⟨s, r⟩
    exact congrArg₂ Prod.mk (h.scan_view s) (h'.scan_view r)
  · rintro key m ⟨s, r⟩
    exact congrArg₂ Prod.mk (h.view_act key.1 m.1 s) (h'.view_act key.2 m.2 r)

variable [Alphabet κ] (t : Table κ δ) {view : σ → τ}

/-- A view that keeps what a machine reads commutes with its steps. -/
theorem map_step (h : Faithful view) (c : Config σ) :
    (t.step c).map view = t.endlessStep (c.map view) := by
  obtain ⟨state, tapes, steps, halted⟩ := c
  cases halted with
  | some verdict => rfl
  | none =>
    have hscan : t.rule? state (Tapes.scan (view tapes)) =
        t.rule? state (Tapes.scan (Tapes.settle tapes)) := by
      rw [h.scan_view]
    cases hrule : t.rule? state (Tapes.scan (Tapes.settle tapes)) with
    | none =>
      rw [hrule] at hscan
      simp [Table.step, Table.endlessStep, Config.map, hrule, hscan, h.view_settle]
    | some rule =>
      have haccepting : rule.target = t.accepting ↔ rule.target + 1 = t.size := by
        have hpos := t.size_pos
        unfold Draft.accepting
        omega
      rw [hrule] at hscan
      simp [Table.step, Table.endlessStep, Config.map, Table.verdictAt, hrule, hscan,
        h.view_act, h.view_settle, haccepting]

/-- A view that keeps what a machine reads commutes with its runs. -/
theorem map_iterate_step (h : Faithful view) (c : Config σ) (n : Nat) :
    (t.step^[n] c).map view = t.endlessStep^[n] (c.map view) := by
  have hsemiconj : Function.Semiconj (Config.map view) t.step t.endlessStep := map_step t h
  exact hsemiconj.iterate_right n c

/-- Machines that look the same go through the same states. -/
theorem fst_drive_eq_of_map_eq (h : Faithful view) {c d : Config σ}
    (hview : c.map view = d.map view) (seen : List Nat) (fuel : Nat) :
    (t.drive seen c fuel).1 = (t.drive seen d fuel).1 := by
  induction fuel generalizing seen c d with
  | zero => rfl
  | succ fuel ih =>
    have hnext : (t.step c).map view = (t.step d).map view := by
      rw [map_step t h, map_step t h, hview]
    have hstate : (t.step c).state = (t.step d).state :=
      (congrArg Config.state hnext :)
    have hhalted : (t.step c).halted = (t.step d).halted :=
      (congrArg Config.halted hnext :)
    simp only [Table.drive, hhalted, hstate]
    cases (t.step d).halted with
    | some verdict => rfl
    | none => exact ih hnext _

theorem fst_resume_eq_of_map_eq (h : Faithful view) {c d : Config σ}
    (hview : c.map view = d.map view) (limit : Nat) :
    (t.resume limit c).1 = (t.resume limit d).1 := by
  have hsteps : c.steps = d.steps := (congrArg Config.steps hview :)
  rw [Table.resume, Table.resume, hsteps]
  exact fst_drive_eq_of_map_eq t h hview [] _

/-- A view keeps how far heads reach. -/
theorem reach_map (h : Faithful view) (c : Config σ) (head : τ → Nat) (n : Nat) :
    reach (fun k => t.endlessStep^[k] (c.map view)) head n =
      reach (fun k => t.step^[k] c) (fun s => head (view s)) n := by
  simp only [reach, ← map_iterate_step t h]
  rfl

end Views

/-! ## How much is kept -/

section Kept

variable {κ δ σ α : Type} [Alphabet κ] [Tapes σ κ δ] {blank : α}

/-- One of the tapes of a collection: it is kept up to its head with the others, and what is
done to them keeps no more of it. -/
structure Part (part : σ → Tape blank) : Prop where
  part_settle : ∀ s, part (Tapes.settle s) = (part s).settle
  size_part_act : ∀ key m s,
    (part (Tapes.act key m s)).cells.size = (part s).settle.cells.size

variable (t : Table κ δ) {part : σ → Tape blank}

/-- A step of a machine that has not halted keeps its tapes up to their heads, whether there
is a rule or not. -/
theorem size_part_step (h : Part part) (c : Config σ) :
    (part (t.step c).tapes).cells.size =
      if c.halted = none then max (part c.tapes).cells.size ((part c.tapes).head + 1)
      else (part c.tapes).cells.size := by
  by_cases hc : c.halted = none
  · rw [if_pos hc, ← Tape.size_cells_settle]
    cases hrule : t.rule? c.state (Tapes.scan (Tapes.settle c.tapes)) with
    | none => rw [t.step_of_rule?_eq_none hc hrule, h.part_settle]
    | some rule =>
      rw [t.step_of_rule?_eq_some hc hrule, h.size_part_act, h.part_settle,
        Tape.size_cells_settle, Tape.head_settle, Tape.size_cells_settle]
      omega
  · rw [if_neg hc, t.step_of_halted (Option.isSome_iff_ne_none.mpr hc)]

theorem reach_succ {τ : Type} (run : Nat → Config τ) (head : τ → Nat) (n : Nat) :
    reach run head (n + 1) =
      if (run n).halted = none then max (reach run head n) (head (run n).tapes + 1)
      else reach run head n := by
  unfold reach
  rw [Finset.range_add_one, Finset.filter_insert]
  split
  · rw [Finset.sup_insert, max_comm]
  · rfl

/-- After a run a tape is kept as far as it was loaded and as far as its head has reached. -/
theorem size_part_iterate_step (h : Part part) (c : Config σ) (n : Nat) :
    (part (t.step^[n] c).tapes).cells.size =
      max (part c.tapes).cells.size
        (reach (fun k => t.step^[k] c) (fun s => (part s).head) n) := by
  induction n with
  | zero => simp [reach]
  | succ n ih =>
    rw [reach_succ, Function.iterate_succ_apply', size_part_step t h, ih]
    split
    · rw [max_assoc]
    · rfl

end Kept

/-! ## Kept tapes seen as endless ones -/

namespace Tape

variable {α : Type} {blank : α}

/-- The kept part of a tape agrees with an endless tape, which is blank beyond it, and the
heads are at the same position. -/
structure Agrees (tape : Tape blank) (e : EndlessTape α) : Prop where
  head_eq : tape.head = e.head
  getElem_eq : ∀ (position : Nat) (h : position < tape.cells.size),
    tape.cells[position] = e.content position
  eq_blank : ∀ position, tape.cells.size ≤ position → e.content position = blank

/-- A tape as an endless one. -/
def endless (tape : Tape blank) : EndlessTape α :=
  ⟨tape.get, tape.head⟩

theorem agrees_endless (tape : Tape blank) : tape.Agrees tape.endless := by
  refine ⟨rfl, ?_, ?_⟩
  · intro position h
    simp [endless, get, h]
  · intro position h
    simp [endless, get, h]

theorem endless_ofList (cells : List α) :
    (ofList cells : Tape blank).endless = .ofList blank cells := by
  unfold endless EndlessTape.ofList
  congr
  funext position
  simp [ofList, get]

/-- Blanks behind the content of a tape cannot be told from what is not kept. -/
theorem endless_ofList_append_blanks (cells : List α) (k : Nat) :
    (ofList (cells ++ List.replicate k blank) : Tape blank).endless =
      (ofList cells : Tape blank).endless := by
  rw [endless_ofList, endless_ofList]
  unfold EndlessTape.ofList
  congr
  funext position
  rw [List.getD_eq_getElem?_getD, List.getD_eq_getElem?_getD, List.getElem?_append]
  split
  · rfl
  · next hle =>
    rw [List.getElem?_eq_none (Nat.le_of_not_lt hle), List.getElem?_replicate]
    split
    · rfl
    · rfl

theorem faithful_endless : Faithful (endless : Tape blank → EndlessTape α) := by
  constructor
  · intro tape
    exact congrArg₂ EndlessTape.mk (funext (get_settle tape)) (head_settle tape)
  · intro tape
    change tape.get tape.head = tape.settle.get tape.settle.head
    rw [head_settle, get_settle]
  · intro a m tape
    apply congrArg₂ EndlessTape.mk
    · funext position
      exact (get_shift m _ position).trans (get_write a tape position)
    · cases m with
      | left => rfl
      | right => rfl

/-- A tape on its own is a part of itself. -/
theorem part_self : Part (fun tape : Tape blank => tape) := by
  constructor
  · intro tape
    rfl
  · intro a m tape
    change ((tape.write a).shift m).cells.size = tape.settle.cells.size
    have hwrite : (tape.write a).cells.size = tape.settle.cells.size := by
      simp [write]
    cases m with
    | left => exact hwrite
    | right => exact hwrite

end Tape

section Pairs

variable {κ δ σ μ ε ρ α : Type} [Tapes σ κ δ] [Tapes ρ μ ε] {blank : α}

theorem Part.fst {part : σ → Tape blank} (h : Part part) :
    Part fun p : σ × ρ => part p.1 := by
  constructor
  · intro p
    exact h.part_settle p.1
  · intro key m p
    exact h.size_part_act key.1 m.1 p.1

theorem Part.snd {part : ρ → Tape blank} (h : Part part) :
    Part fun p : σ × ρ => part p.2 := by
  constructor
  · intro p
    exact h.part_settle p.2
  · intro key m p
    exact h.size_part_act key.2 m.2 p.2

end Pairs

/-! ## Runs on kept and on endless tapes -/

section Runs

variable {κ δ σ τ α : Type} [Alphabet κ] [Tapes σ κ δ] [Tapes τ κ δ] {blank : α}
variable (t : Table κ δ) {view : σ → τ} (hview : Faithful view)
include hview

/-- The machine on endless tapes is at every moment the machine on kept tapes, seen as one
on endless tapes. -/
theorem iterate_endlessStep_load (state : Nat) (tapes : σ) (n : Nat) :
    t.endlessStep^[n] ⟨state, view tapes, 0, none⟩ =
      (t.step^[n] (.load state tapes)).map view :=
  (map_iterate_step t hview (.load state tapes) n).symm

/-- How much of a tape is kept after a run, told by the machine on endless tapes. -/
theorem size_part_iterate_load {part : σ → Tape blank} (hpart : Part part) (head : τ → Nat)
    (hhead : ∀ s, head (view s) = (part s).head) (state : Nat) (tapes : σ) (n : Nat) :
    (part (t.step^[n] (.load state tapes)).tapes).cells.size =
      max (part tapes).cells.size
        (reach (fun k => t.endlessStep^[k] ⟨state, view tapes, 0, none⟩) head n) := by
  have hreach := reach_map t hview (.load state tapes) head n
  simp only [hhead] at hreach
  rw [size_part_iterate_step t hpart, ← hreach]
  rfl

end Runs

/-- A machine that keeps a finite part of its tapes is at every moment in the state of the
machine that starts in the same state on endless tapes with the same content, with the same
heads, number of steps and verdict.  The kept parts agree with the endless tapes, which are
blank beyond them, and they reach as far as the loaded content and as far as a head was when a
machine that had not halted was told to step.  So blanks loaded behind the content do not
change the record of a run. -/
theorem runs_agree_on_endless_tapes :
    (∀ (t : OneTapeTable) (state : Nat) (cells : List Cell),
      let load (content : List Cell) : Config OneTape := .load state (.ofList content)
      let kept (n : Nat) := t.step^[n] (load cells)
      let endless (n : Nat) := t.endlessStep^[n] ⟨state, .ofList Cell.blank cells, 0, none⟩
      (∀ n, (kept n).state = (endless n).state ∧ (kept n).steps = (endless n).steps ∧
        (kept n).halted = (endless n).halted ∧
        (kept n).tapes.Agrees (endless n).tapes ∧
        (kept n).tapes.cells.size = max cells.length (reach endless EndlessTape.head n)) ∧
      ∀ k limit, (t.resume limit (load (cells ++ List.replicate k .blank))).1 =
        (t.resume limit (load cells)).1) ∧
    ∀ (t : TwoTapeTable) (first second : List Symbol),
      let kept (n : Nat) := t.step^[n] (.twoTapes first second)
      let endless (n : Nat) := t.endlessStep^[n]
        ⟨0, (.ofList Symbol.blank first, .ofList Symbol.blank second), 0, none⟩
      (∀ n, (kept n).state = (endless n).state ∧ (kept n).steps = (endless n).steps ∧
        (kept n).halted = (endless n).halted ∧
        (kept n).tapes.1.Agrees (endless n).tapes.1 ∧
        (kept n).tapes.2.Agrees (endless n).tapes.2 ∧
        (kept n).tapes.1.cells.size =
          max first.length (reach endless (fun tapes => tapes.1.head) n) ∧
        (kept n).tapes.2.cells.size =
          max second.length (reach endless (fun tapes => tapes.2.head) n)) ∧
      ∀ k l limit,
        (t.resume limit (.twoTapes (first ++ List.replicate k .blank)
          (second ++ List.replicate l .blank))).1 =
        (t.resume limit (.twoTapes first second)).1 := by
  constructor
  · intro t state cells load kept endless
    have hview : Faithful (Tape.endless : OneTape → EndlessTape Cell) := Tape.faithful_endless
    have hrun : ∀ n, endless n = (kept n).map Tape.endless := by
      intro n
      simp only [endless, ← Tape.endless_ofList]
      exact iterate_endlessStep_load t hview state (.ofList cells) n
    refine ⟨?_, ?_⟩
    · intro n
      have hsize := size_part_iterate_load t hview Tape.part_self EndlessTape.head
        (fun _ => rfl) state (.ofList cells) n
      rw [Tape.endless_ofList] at hsize
      rw [hrun n]
      exact ⟨rfl, rfl, rfl, Tape.agrees_endless _, hsize⟩
    · intro k limit
      apply fst_resume_eq_of_map_eq t hview
      simp only [load, Config.load, Config.map, Tape.endless_ofList_append_blanks]
  · intro t first second kept endless
    have hview : Faithful (Prod.map Tape.endless Tape.endless :
        TwoTapes → EndlessTape Symbol × EndlessTape Symbol) :=
      Tape.faithful_endless.prod Tape.faithful_endless
    have hrun : ∀ n, endless n = (kept n).map (Prod.map Tape.endless Tape.endless) := by
      intro n
      simp only [endless, ← Tape.endless_ofList]
      exact iterate_endlessStep_load t hview 0 (.ofList first, .ofList second) n
    refine ⟨?_, ?_⟩
    · intro n
      have hfirst := size_part_iterate_load t hview Tape.part_self.fst
        (fun tapes => tapes.1.head) (fun _ => rfl) 0 (.ofList first, .ofList second) n
      have hsecond := size_part_iterate_load t hview Tape.part_self.snd
        (fun tapes => tapes.2.head) (fun _ => rfl) 0 (.ofList first, .ofList second) n
      rw [Prod.map_apply, Tape.endless_ofList, Tape.endless_ofList] at hfirst hsecond
      rw [hrun n]
      exact ⟨rfl, rfl, rfl, Tape.agrees_endless _, Tape.agrees_endless _, hfirst, hsecond⟩
    · intro k l limit
      apply fst_resume_eq_of_map_eq t hview
      simp only [Config.twoTapes, Config.load, Config.map, Prod.map_apply,
        Tape.endless_ofList_append_blanks]

end TapeReduction
