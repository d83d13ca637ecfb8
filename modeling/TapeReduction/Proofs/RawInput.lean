import Mathlib.Data.List.TakeWhile
import TapeReduction.Proofs.Isolation
import TapeReduction.Proofs.Layout
import TapeReduction.Proofs.Run

/-!
# Laying out any tape

A reduced machine may be loaded with a tape that has blanks between its symbols.  It
takes the symbols before the first blank for its input, and writes the region of the
second tape over the cells behind them.  While it does so it reads nothing but blanks:
a symbol where it is about to write is a rejection, and a symbol further right is never
looked at.
-/

namespace TapeReduction.Reduction

open Cell (separator plain)

/-- What the machine takes for its input: the symbols before the first blank. -/
def inputPart (raw : List Symbol) : List Symbol :=
  raw.takeWhile (· ∈ Symbol.inputs)

/-- The cells that laying out the tape needs behind the input are blank. -/
def RoomBehind (raw : List Symbol) : Prop :=
  ∀ p, (inputPart raw).length ≤ p → p < max (inputPart raw).length 1 + 4 →
    raw.getD p .blank = .blank

section Parts

variable (raw : List Symbol)

theorem exists_append_inputPart : ∃ rest, raw = inputPart raw ++ rest :=
  ⟨_, List.takeWhile_append_dropWhile.symm⟩

theorem mem_inputs_of_mem_inputPart : ∀ x ∈ inputPart raw, x ∈ Symbol.inputs := by
  intro x hx
  simpa using List.mem_takeWhile_imp hx

theorem inputPart_of_inputs {raw : List Symbol} (h : ∀ x ∈ raw, x ∈ Symbol.inputs) :
    inputPart raw = raw :=
  List.takeWhile_eq_self_iff.mpr fun x hx => by simpa using h x hx

/-- The input ends at a blank. -/
theorem getD_length_inputPart : raw.getD (inputPart raw).length .blank = .blank := by
  induction raw with
  | nil => rfl
  | cons s rest ih =>
    cases s with
    | blank => rfl
    | zero => exact ih
    | one => exact ih

theorem roomBehind_of_inputs {raw : List Symbol} (h : ∀ x ∈ raw, x ∈ Symbol.inputs) :
    RoomBehind raw := by
  intro p hle _
  rw [inputPart_of_inputs h] at hle
  exact List.getD_eq_default _ _ hle

theorem headD_drop_plainCells {raw : List Symbol} {p : Nat} :
    ((plainCells raw).drop p).headD .blank = .blank ↔ raw.getD p .blank = .blank := by
  rw [headD_drop, getD_plainCells]
  exact ⟨Cell.plain.inj, congrArg plain⟩

end Parts

/-! ## Where the layout stops -/

/-- The roles that write behind the input. -/
def writingRoles : List SetupRole :=
  [.emptyInput, .closeFirst, .openSecond, .closeSecond]

/-- From the spot the machine walks to where it should write, and finds a symbol there. -/
def Stops (a : Spot) : Prop :=
  ∃ n b, InnerWalk setup n a b ∧ (∃ r ∈ writingRoles, b.role = .setup r) ∧ b.scan ≠ .blank

theorem Stops.of_walk {n : Nat} {a b : Spot} (hwalk : InnerWalk setup n a b) (h : Stops b) :
    Stops a := by
  obtain ⟨m, c, hrest, hc⟩ := h
  exact ⟨n + m, c, hwalk.trans hrest, hc⟩

/-- To show that the machine stops one may take it to read a blank where it is. -/
theorem Stops.of_blank {r : SetupRole} {left right : List Cell} (hr : r ∈ writingRoles)
    (h : right.headD .blank = .blank → Stops ⟨.setup r, left, right⟩) :
    Stops ⟨.setup r, left, right⟩ := by
  by_cases hblank : right.headD .blank = .blank
  · exact h hblank
  · exact ⟨0, _, .refl _, ⟨r, hr, rfl⟩, hblank⟩

/-- The machine comes to the end of its input.  An empty input takes a second blank, for its
tape has a cell all the same. -/
theorem walk_inputPart {raw : List Symbol}
    (h : raw.getD (max (inputPart raw).length 1) .blank = .blank) :
    InnerWalk setup (max (inputPart raw).length 1 + 1) ⟨.setup .start, [], plainCells raw⟩
      ⟨.setup .closeFirst, separator :: regionAt (orBlank (inputPart raw)) 0,
        (plainCells raw).drop (max (inputPart raw).length 1 + 1)⟩ := by
  obtain ⟨rest, happend⟩ := exists_append_inputPart raw
  have hcells : plainCells (inputPart raw) ++ plainCells rest = plainCells raw := by
    conv_rhs => rw [happend]
    exact List.map_append.symm
  have hwalk := walk_input (r := plainCells rest) (mem_inputs_of_mem_inputPart raw)
  rw [hcells] at hwalk
  refine hwalk ?_
  intro p hle hlt
  have hp : p = (inputPart raw).length ∨ p = max (inputPart raw).length 1 := by omega
  rw [getD_plainCells]
  rcases hp with rfl | rfl
  · rw [getD_length_inputPart]
  · rw [h]

/-- Without room behind the input the machine stops. -/
theorem stops_of_not_roomBehind {raw : List Symbol} (h : ¬RoomBehind raw) :
    Stops ⟨.setup .start, [], plainCells raw⟩ := by
  have hend := getD_length_inputPart raw
  by_cases hfirst : raw.getD (max (inputPart raw).length 1) .blank = .blank
  · -- If all four cells behind the input were blank, there would be room.
    refine .of_walk (walk_inputPart hfirst) (.of_blank (by decide) fun hclose => ?_)
    refine .of_walk (walk_closeFirst hclose) (.of_blank (by decide) fun hopen => ?_)
    refine .of_walk (walk_openSecond hopen) (.of_blank (by decide) fun hlast => ?_)
    rw [List.tail_drop] at hopen
    rw [List.tail_drop, List.tail_drop] at hlast
    refine absurd ?_ h
    intro p hle hlt
    generalize hm : max (inputPart raw).length 1 = m at *
    have hp : p = (inputPart raw).length ∨ p = m ∨ p = m + 1 ∨ p = m + 2 ∨ p = m + 3 := by
      omega
    rcases hp with rfl | rfl | rfl | rfl | rfl
    · exact hend
    · exact hfirst
    · exact headD_drop_plainCells.mp hclose
    · exact headD_drop_plainCells.mp hopen
    · exact headD_drop_plainCells.mp hlast
  · -- The input ends at a blank, so it is empty, and its tape needs a second one.
    have hempty : (inputPart raw).length = 0 := by
      by_contra hpos
      rw [Nat.max_eq_left (Nat.pos_of_ne_zero hpos)] at hfirst
      exact hfirst hend
    rw [hempty] at hend hfirst
    have hstart : (plainCells raw).headD .blank = .blank :=
      (headD_drop_plainCells (p := 0)).mpr hend
    refine .of_walk (walk_start_blank hstart) (.of_blank (by decide) fun hsecond => ?_)
    rw [← List.drop_one] at hsecond
    exact absurd (headD_drop_plainCells.mp hsecond) hfirst

/-! ## Rejection in the layout -/

theorem index_source_of_mem_setup {i : Instruction} (hi : i ∈ setup) (states : Nat) :
    i.source.index states = i.source.index 0 := by
  obtain ⟨⟨r, hr⟩, -⟩ := endpoints_of_mem_setup i hi
  rw [hr]
  rfl

theorem read_eq_blank_of_mem_setup : ∀ i ∈ setup, ∀ r ∈ writingRoles,
    i.source.index 0 = (Role.setup r).index 0 → i.read = .blank := by
  decide

theorem state_ne_entry_of_quiet {t : TwoTapeTable} {one : OneTapeTable} {raw : List Symbol}
    {n k : Nat} (h : Quiet t.size one (.oneTape raw) n) (hlt : k < n) :
    (one.step^[k] (.oneTape raw)).state ≠ entry 0 := by
  intro hk
  rcases Nat.eq_zero_or_pos k with rfl | hpos
  · exact Nat.ne_of_lt (Role.index_setup_lt t.size .start) hk
  · exact (h k hpos hlt).2 ⟨0, t.size_pos, hk⟩

namespace Reduced

variable {t : TwoTapeTable} {one : OneTapeTable} (h : Reduced t one)
include h

/-- Behind the input only blanks are written over. -/
theorem rule?_writingRole_eq_none {r : SetupRole} (hr : r ∈ writingRoles) {cell : Cell}
    (hcell : cell ≠ .blank) : one.rule? ((Role.setup r).index t.size) cell = none := by
  apply Option.eq_none_iff_forall_ne_some.mpr
  intro rule hrule
  obtain ⟨i, hi, hsource, hread, -⟩ :=
    (h.rule?_eq_some_iff_of_lt (Role.index_setup_lt t.size r) cell rule).mp hrule
  rw [index_source_of_mem_setup hi] at hsource
  exact hcell (hread.symm.trans (read_eq_blank_of_mem_setup i hi r hr hsource))

/-- Where it stops the machine rejects, and it never comes to a block. -/
theorem rejects_of_stops {raw : List Symbol}
    (hstops : Stops ⟨.setup .start, [], plainCells raw⟩) :
    ∃ n, (one.step^[n] (.oneTape raw)).halted = some .reject ∧
      (one.step^[n] (.oneTape raw)).state < setupSize ∧
      ∀ k, (one.step^[k] (.oneTape raw)).state ≠ entry 0 := by
  obtain ⟨n, b, hwalk, ⟨r, hr, hrole⟩, hscan⟩ := hstops
  have hrule : one.rule? (b.role.index t.size) b.scan = none := by
    rw [hrole]
    exact h.rule?_writingRole_eq_none hr hscan
  have hstart : Config.oneTape raw =
      Spot.config t.size ⟨.setup .start, [], plainCells raw⟩ 0 := rfl
  obtain ⟨hlast, hquiet⟩ := h.quiet_of_walk (hwalk.subset setup_subset_program) 0
  rw [← hstart] at hlast hquiet
  have hend : one.step^[n + 1] (.oneTape raw) =
      ⟨b.role.index t.size, b.tape.settle, 0 + n, some .reject⟩ := by
    rw [Function.iterate_succ_apply', hlast, step_config_of_none hrule]
  have hstate : (one.step^[n + 1] (.oneTape raw)).state < setupSize := by
    rw [hend, hrole]
    exact Role.index_setup_lt t.size r
  have hentry : setupSize ≤ entry 0 := Nat.le_add_right _ _
  refine ⟨n + 1, congrArg Config.halted hend, hstate, ?_⟩
  intro k
  rcases Nat.lt_or_ge k (n + 1) with hlt | hge
  · exact state_ne_entry_of_quiet hquiet hlt
  · rw [one.iterate_step_eq_of_le (congrArg (Option.isSome ∘ Config.halted) hend) hge]
    exact Nat.ne_of_lt (Nat.lt_of_lt_of_le hstate hentry)

/-- With room behind the input the tape is laid out, and what is behind the room stays. -/
theorem layout_of_roomBehind {raw : List Symbol} (hroom : RoomBehind raw) :
    (∀ k < layoutSteps (inputPart raw).length,
      (one.step^[k] (.oneTape raw)).state ≠ entry 0) ∧
    one.step^[layoutSteps (inputPart raw).length] (.oneTape raw) =
      ⟨entry 0, .ofList (encode (inputPart raw) [] ++
          plainCells (raw.drop (max (inputPart raw).length 1 + 4))),
        layoutSteps (inputPart raw).length, none⟩ := by
  obtain ⟨rest, happend⟩ := exists_append_inputPart raw
  have hlayout := h.layout_of_blank (r := rest) (mem_inputs_of_mem_inputPart raw)
  rw [← happend] at hlayout
  obtain ⟨hquiet, hlast⟩ := hlayout hroom
  exact ⟨fun k hlt => state_ne_entry_of_quiet hquiet hlt, hlast⟩

end Reduced

/-- On any tape, let the input be the symbols before the first blank.  The reduced machine
comes to its first block exactly if the four cells behind the input are blank, where an empty
input counts as a blank cell.  This takes it a number of steps that depends on the length of
the input only, the head is then on the first cell of the laid-out tape, and the cells further
right are as they were.  Otherwise it rejects in a state that lays out the tape.  A tape
without blanks is all input. -/
theorem layout_on_every_tape (t : TwoTapeTable) (raw : List Symbol) :
    ∃ one, reduce t = .ok one ∧
      let w := inputPart raw
      let m := max w.length 1
      let run (k : Nat) := one.step^[k] (.oneTape raw)
      ((∃ k, (run k).state = entry 0) ↔
        ∀ p, w.length ≤ p → p < m + 4 → raw.getD p .blank = .blank) ∧
      ((∃ k, (run k).state = entry 0) →
        (∀ k < 2 * (m + 4) - 1, (run k).state ≠ entry 0) ∧
        run (2 * (m + 4) - 1) =
          ⟨entry 0, .ofList (encode w [] ++ plainCells (raw.drop (m + 4))),
            2 * (m + 4) - 1, none⟩) ∧
      ((¬∃ k, (run k).state = entry 0) →
        ∃ k, (run k).halted = some .reject ∧ (run k).state < setupSize) ∧
      ((∀ s ∈ raw, s ∈ Symbol.inputs) →
        run (2 * (m + 4) - 1) = ⟨entry 0, .ofList (encode raw []), 2 * (m + 4) - 1, none⟩) := by
  obtain ⟨one, hone, h⟩ := exists_reduce_eq_ok t
  refine ⟨one, hone, ?_⟩
  intro w m run
  have hreaches : (∃ k, (run k).state = entry 0) ↔ RoomBehind raw := by
    constructor
    · rintro ⟨k, hk⟩
      by_contra hroom
      obtain ⟨-, -, -, hnever⟩ := h.rejects_of_stops (stops_of_not_roomBehind hroom)
      exact hnever k hk
    · intro hroom
      exact ⟨_, congrArg Config.state (h.layout_of_roomBehind hroom).2⟩
  refine ⟨hreaches, ?_, ?_, ?_⟩
  · intro hreach
    exact h.layout_of_roomBehind (hreaches.mp hreach)
  · intro hnever
    obtain ⟨k, hverdict, hstate, -⟩ :=
      h.rejects_of_stops (stops_of_not_roomBehind (mt hreaches.mpr hnever))
    exact ⟨k, hverdict, hstate⟩
  · intro hinputs
    have hw : w = raw := inputPart_of_inputs hinputs
    have hbehind : raw.drop (m + 4) = [] :=
      List.drop_eq_nil_of_le (by simp only [m, hw]; omega)
    have hcells : encode w [] ++ plainCells (raw.drop (m + 4)) = encode raw [] := by
      rw [hbehind, hw]
      exact List.append_nil _
    rw [← hcells]
    exact (h.layout_of_roomBehind (roomBehind_of_inputs hinputs)).2

/-- A one five cells behind the input stays where it is, a one two cells behind it is in the
way, and without the blanks between them both ones are the input. -/
theorem layout_on_every_tape_leadingOne :
    ∃ one, reduce leadingOne = .ok one ∧
      one.step^[9] (.oneTape [.one, .blank, .blank, .blank, .blank, .one]) =
        ⟨entry 0, .ofList (encode [.one] [] ++ [.plain .one]), 9, none⟩ ∧
      (∃ k, (one.step^[k] (.oneTape [.one, .blank, .one])).halted = some .reject ∧
        (one.step^[k] (.oneTape [.one, .blank, .one])).state < setupSize) ∧
      one.step^[11] (.oneTape [.one, .one]) =
        ⟨entry 0, .ofList (encode [.one, .one] []), 11, none⟩ := by
  obtain ⟨one, hreduce, hreaches, hlayout, -, -⟩ :=
    layout_on_every_tape leadingOne [.one, .blank, .blank, .blank, .blank, .one]
  obtain ⟨other, hother, hreaches', -, hrejects, -⟩ :=
    layout_on_every_tape leadingOne [.one, .blank, .one]
  obtain ⟨third, hthird, -, -, -, hinputs⟩ := layout_on_every_tape leadingOne [.one, .one]
  obtain rfl : one = other := Except.ok.inj (hreduce.symm.trans hother)
  obtain rfl : one = third := Except.ok.inj (hreduce.symm.trans hthird)
  refine ⟨one, hreduce, ?_, ?_, ?_⟩
  · refine (hlayout (hreaches.mpr ?_)).2
    decide
  · refine hrejects (mt hreaches'.mp ?_)
    intro hroom
    exact absurd (hroom 2 (by decide) (by decide)) (by decide)
  · exact hinputs (by decide)

end TapeReduction.Reduction
