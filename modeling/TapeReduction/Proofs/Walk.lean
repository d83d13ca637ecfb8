import Mathlib.Data.List.Induction
import Mathlib.Logic.Function.Iterate
import TapeReduction.Proofs.Reduced

/-!
# Walks of a reduced machine

A reduced machine is followed by role: a spot is a role with the cells left of
the head and those from the head on, and a walk makes one instruction after the
other.  Walks are made from any list of instructions, so that a fragment of a
program has its walks before the program is put together, and a walk keeps to a
property of the roles and tapes it comes through.

The last part takes walks to steps of the table that has the instructions as its
rules.
-/

namespace TapeReduction.Tape

variable {α : Type} {blank : α} (before rest : List α)

/-- A tape with its head right behind some cells; there may be nothing kept from there on. -/
def behind : Tape blank :=
  ⟨(before ++ rest).toArray, before.length⟩

theorem settle_behind :
    (behind before rest : Tape blank).settle = behind before (rest.headD blank :: rest.tail) := by
  cases rest with
  | nil => simp [settle, behind]
  | cons a rest => simp [settle, behind]

theorem scan_settle_behind :
    (behind before rest : Tape blank).settle.scan = rest.headD blank := by
  rw [settle_behind]
  simp [scan, behind]

/-- The cell under the head is overwritten, whether it was kept or not. -/
theorem write_settle_behind (a : α) :
    (behind before rest : Tape blank).settle.write a = behind before (a :: rest.tail) := by
  rw [settle_behind]
  simp [write, settle, behind]

end TapeReduction.Tape

namespace TapeReduction.Reduction

/-- A running machine: its role, the cells left of its head, and the kept cells from the
head on.  There may be none of the latter, and the head is on a blank then. -/
structure Spot where
  role : Role
  left : List Cell
  right : List Cell

namespace Spot

def cells (a : Spot) : List Cell :=
  a.left ++ a.right

def scan (a : Spot) : Cell :=
  a.right.headD .blank

/-- The spot with the head on the last cell of `left`; if there is none, the head is on
the first cell of the tape. -/
def back (role : Role) (left right : List Cell) : Spot :=
  ⟨role, left.dropLast, left.getLast?.toList ++ right⟩

/-- The spot after an instruction. -/
def follow (a : Spot) (i : Instruction) : Spot :=
  match i.move with
  | .left => back i.target a.left (i.write :: a.right.tail)
  | .right => ⟨i.target, a.left ++ [i.write], a.right.tail⟩

@[simp]
theorem back_nil (role : Role) (right : List Cell) : back role [] right = ⟨role, [], right⟩ :=
  rfl

@[simp]
theorem back_singleton (role : Role) (c : Cell) (right : List Cell) :
    back role [c] right = ⟨role, [], c :: right⟩ :=
  rfl

@[simp]
theorem back_concat (role : Role) (left : List Cell) (c : Cell) (right : List Cell) :
    back role (left ++ [c]) right = ⟨role, left, c :: right⟩ := by
  simp [back]

@[simp]
theorem cells_back (role : Role) (left right : List Cell) :
    (back role left right).cells = left ++ right := by
  rcases List.eq_nil_or_concat left with rfl | ⟨l, c, rfl⟩
  · rfl
  · simp [cells]

/-- An instruction that moves left comes to the cell before. -/
theorem follow_left (source target : Role) (read write c d : Cell) (l r : List Cell) :
    follow ⟨source, l ++ [c], d :: r⟩ ⟨source, read, target, write, .left⟩ =
      ⟨target, l, c :: write :: r⟩ :=
  back_concat ..

@[simp]
theorem role_follow (a : Spot) (i : Instruction) : (a.follow i).role = i.target := by
  unfold follow
  split <;> rfl

@[simp]
theorem cells_follow (a : Spot) (i : Instruction) :
    (a.follow i).cells = a.left ++ i.write :: a.right.tail := by
  unfold follow
  split
  · exact cells_back ..
  · simp [cells]

end Spot

/-- `n` instructions lead from a spot to another, and on each spot they lead to the role
and the tape have a property. -/
inductive Walk (prog : List Instruction) (P : Role → List Cell → Prop) :
    Nat → Spot → Spot → Prop where
  | refl (a : Spot) : Walk prog P 0 a a
  | step {n : Nat} {a b : Spot} (i : Instruction) (hi : i ∈ prog)
      (hsource : i.source = a.role) (hread : i.read = a.scan)
      (hP : P i.target (a.follow i).cells) (hrest : Walk prog P n (a.follow i) b) :
      Walk prog P (n + 1) a b

namespace Walk

variable {prog : List Instruction} {P : Role → List Cell → Prop}

theorem trans {n m : Nat} {a b c : Spot} (h : Walk prog P n a b) (h' : Walk prog P m b c) :
    Walk prog P (n + m) a c := by
  induction h with
  | refl a => rwa [Nat.zero_add]
  | step i hi hsource hread hP _ ih =>
    rw [Nat.add_right_comm]
    exact .step i hi hsource hread hP (ih h')

/-- A walk of a fragment is a walk of the whole. -/
theorem subset {prog' : List Instruction} {n : Nat} {a b : Spot}
    (h : Walk prog P n a b) (hsub : prog ⊆ prog') : Walk prog' P n a b := by
  induction h with
  | refl a => exact .refl a
  | step i hi hsource hread hP _ ih => exact .step i (hsub hi) hsource hread hP ih

theorem imp {Q : Role → List Cell → Prop} {n : Nat} {a b : Spot}
    (h : Walk prog P n a b) (hPQ : ∀ x cells, P x cells → Q x cells) : Walk prog Q n a b := by
  induction h with
  | refl a => exact .refl a
  | step i hi hsource hread hP _ ih => exact .step i hi hsource hread (hPQ _ _ hP) ih

theorem congr {n m : Nat} {a b a' b' : Spot} (h : Walk prog P n a b) (hn : n = m)
    (ha : a = a') (hb : b = b') : Walk prog P m a' b' := by
  subst hn ha hb
  exact h

theorem one {a : Spot} {i : Instruction} (hi : i ∈ prog) (hsource : i.source = a.role)
    (hread : i.read = a.scan) (hP : P i.target (a.follow i).cells) :
    Walk prog P 1 a (a.follow i) :=
  .step i hi hsource hread hP (.refl _)

section Steps

variable {role role' : Role} {c w : Cell} {l r : List Cell}

theorem right (hi : ⟨role, c, role', w, .right⟩ ∈ prog) (hscan : r.headD .blank = c)
    (hP : P role' (l ++ w :: r.tail)) :
    Walk prog P 1 ⟨role, l, r⟩ ⟨role', l ++ [w], r.tail⟩ :=
  one hi rfl hscan.symm (by rwa [Spot.cells_follow])

theorem left (hi : ⟨role, c, role', w, .left⟩ ∈ prog) (hscan : r.headD .blank = c)
    (hP : P role' (l ++ w :: r.tail)) :
    Walk prog P 1 ⟨role, l, r⟩ (.back role' l (w :: r.tail)) :=
  one hi rfl hscan.symm (by rwa [Spot.cells_follow])

/-- Passing over cells to the right. -/
theorem scanRight {xs : List Cell} (hpass : ∀ c ∈ xs, pass role c role .right ∈ prog)
    (hP : P role (l ++ xs ++ r)) :
    Walk prog P xs.length ⟨role, l, xs ++ r⟩ ⟨role, l ++ xs, r⟩ := by
  induction xs generalizing l with
  | nil =>
    rw [List.append_nil]
    exact .refl _
  | cons c xs ih =>
    have hhead : Walk prog P 1 ⟨role, l, c :: (xs ++ r)⟩ ⟨role, l ++ [c], xs ++ r⟩ :=
      right (hpass c (List.mem_cons_self ..)) rfl (by simpa using hP)
    have hrest := ih (l := l ++ [c]) (fun d hd => hpass d (List.mem_cons_of_mem _ hd))
      (by simpa using hP)
    rw [List.append_assoc, List.singleton_append] at hrest
    rw [List.length_cons, Nat.add_comm]
    exact hhead.trans hrest

/-- Passing over cells to the left. -/
theorem scanLeft {xs : List Cell} (hpass : ∀ c ∈ xs, pass role c role .left ∈ prog)
    (hP : P role (l ++ xs ++ r)) :
    Walk prog P xs.length (.back role (l ++ xs) r) (.back role l (xs ++ r)) := by
  induction xs using List.reverseRecOn generalizing r with
  | nil =>
    rw [List.append_nil]
    exact .refl _
  | append_singleton xs c ih =>
    rw [← List.append_assoc] at hP ⊢
    rw [Spot.back_concat, List.append_assoc xs, List.singleton_append, List.length_append,
      List.length_singleton, Nat.add_comm]
    have hlast : Walk prog P 1 ⟨role, l ++ xs, c :: r⟩ (.back role (l ++ xs) (c :: r)) :=
      left (hpass c (by simp)) rfl (by simpa using hP)
    refine hlast.trans (ih (fun d hd => hpass d (List.mem_append_left _ hd)) ?_)
    simpa using hP

end Steps

end Walk

/-! ## Walks as steps of the reduced machine -/

namespace Spot

/-- The tape of a spot. -/
def tape (a : Spot) : OneTape :=
  ⟨a.cells.toArray, a.left.length⟩

/-- The machine at a spot, after a number of steps. -/
def config (states : Nat) (a : Spot) (steps : Nat) : Config OneTape :=
  ⟨a.role.index states, a.tape, steps, none⟩

theorem settle_tape (a : Spot) :
    a.tape.settle = ⟨(a.left ++ a.scan :: a.right.tail).toArray, a.left.length⟩ :=
  Tape.settle_behind a.left a.right

theorem scan_settle_tape (a : Spot) : a.tape.settle.scan = a.scan :=
  Tape.scan_settle_behind a.left a.right

theorem tape_back (role : Role) (l r : List Cell) :
    (back role l r).tape = ⟨(l ++ r).toArray, l.length - 1⟩ := by
  rcases List.eq_nil_or_concat l with rfl | ⟨l, c, rfl⟩
  · rfl
  · simp [tape, cells]

/-- Writing on a tape that is kept up to its head, and moving. -/
theorem shift_write_settle_tape (a : Spot) (i : Instruction) :
    (a.tape.settle.write i.write).shift i.move = (a.follow i).tape := by
  have hwrite : a.tape.settle.write i.write =
      ⟨(a.left ++ i.write :: a.right.tail).toArray, a.left.length⟩ :=
    Tape.write_settle_behind a.left a.right i.write
  rw [hwrite]
  unfold follow
  split
  · next h => simp [h, Tape.shift, tape_back]
  · next h => simp [h, Tape.shift, tape, cells]

end Spot

namespace Reduced

variable {t : TwoTapeTable} {one : OneTapeTable}

/-- One instruction is one step. -/
theorem step_config (h : Reduced t one) {i : Instruction} (hi : i ∈ program t) {a : Spot}
    (hsource : i.source = a.role) (hread : i.read = a.scan) (steps : Nat) :
    one.step (a.config t.size steps) =
      ⟨i.target.index t.size, (a.follow i).tape, steps + 1,
        one.verdictAt (i.target.index t.size)⟩ := by
  have hrule : one.rule? (a.role.index t.size) a.tape.settle.scan = some (i.rule t.size) := by
    rw [Spot.scan_settle_tape, ← hsource, ← hread]
    exact h.rule?_eq_some hi
  rw [← Spot.shift_write_settle_tape]
  simp only [Table.step, Spot.config, Tapes.settle, Tapes.scan, hrule]
  rfl

/-- No rule for what is under the head is a rejection. -/
theorem step_config_of_none {a : Spot}
    (hrule : one.rule? (a.role.index t.size) a.scan = none) (steps : Nat) :
    one.step (a.config t.size steps) =
      ⟨a.role.index t.size, a.tape.settle, steps, some .reject⟩ := by
  rw [← Spot.scan_settle_tape] at hrule
  simp only [Table.step, Spot.config, Tapes.settle, Tapes.scan, hrule]

theorem verdictAt_index (h : Reduced t one) {x : Role} (hx : x.Within t.size)
    (hne : x ≠ .accept) : one.verdictAt (x.index t.size) = none := by
  have hlt := Role.index_lt_accepting hx hne
  unfold Table.verdictAt
  rw [if_neg]
  rw [h.accepting_eq]
  exact Nat.ne_of_lt hlt

theorem verdictAt_accepting (h : Reduced t one) :
    one.verdictAt (accepting t.size) = some (.accept (accepting t.size)) := by
  unfold Table.verdictAt
  rw [if_pos h.accepting_eq.symm]

/-- A walk that never comes to acceptance is a run of the reduced machine. -/
theorem iterate_step_of_walk (h : Reduced t one) {P : Role → List Cell → Prop}
    (hP : ∀ x cells, P x cells → x ≠ .accept) {n : Nat} {a b : Spot}
    (hwalk : Walk (program t) P n a b) (steps : Nat) :
    one.step^[n] (a.config t.size steps) = b.config t.size (steps + n) ∧
      ∀ k, 0 < k → k ≤ n → ∃ e : Spot, P e.role e.cells ∧
        one.step^[k] (a.config t.size steps) = e.config t.size (steps + k) := by
  induction hwalk generalizing steps with
  | refl a =>
    refine ⟨rfl, ?_⟩
    intro k hpos hle
    omega
  | @step n a b i hi hsource hread hPi hrest ih =>
    have hverdict := h.verdictAt_index (target_within_of_mem_program hi) (hP _ _ hPi)
    have hstep : one.step (a.config t.size steps) =
        (a.follow i).config t.size (steps + 1) := by
      rw [h.step_config hi hsource hread, hverdict, Spot.config, Spot.role_follow]
    obtain ⟨hlast, hbetween⟩ := ih (steps + 1)
    constructor
    · rw [Function.iterate_succ_apply, hstep, hlast, Nat.add_assoc, Nat.add_comm 1]
    · intro k hpos hle
      cases k with
      | zero => omega
      | succ k =>
        rw [Function.iterate_succ_apply, hstep]
        cases k with
        | zero => exact ⟨a.follow i, by rwa [Spot.role_follow], rfl⟩
        | succ k =>
          obtain ⟨e, hPe, he⟩ := hbetween (k + 1) (Nat.succ_pos k) (by omega)
          exact ⟨e, hPe, by rw [he, Nat.add_assoc, Nat.add_comm 1]⟩

end Reduced

end TapeReduction.Reduction
