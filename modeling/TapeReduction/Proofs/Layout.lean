import Mathlib.Data.List.GetD
import TapeReduction.Proofs.Emulation
import TapeReduction.Reduction.Lockstep

/-!
# Laying out the tape

Before its first block the reduced machine moves its input right by one cell,
puts a separator in front of it and an empty second tape behind it, and goes
back.  This takes it a number of steps that depends on the length of the input
only, and leaves what the two-tape machine starts on.
-/

namespace TapeReduction.Reduction

open Cell (separator dotted plain)

section Setup

variable {s : Symbol} {l r : List Cell}

theorem start_mem_setup (hs : s ∈ Symbol.inputs) :
    ⟨.setup .start, plain s, .setup (.carry s true), separator, .right⟩ ∈ setup := by
  revert s
  decide

theorem carry_mem_setup (hs : s ∈ Symbol.inputs) (first : Bool) :
    (∀ next ∈ Symbol.inputs, ⟨.setup (.carry s first), plain next,
      .setup (.carry next false), carried s first, .right⟩ ∈ setup) ∧
      ⟨.setup (.carry s first), .blank, .setup .closeFirst, carried s first, .right⟩ ∈
        setup := by
  revert s first
  decide

/-- A symbol of the input is in hand: it and all symbols behind it go one cell right, up to
the blank behind the input. -/
theorem walk_carry (first : Bool) (hs : s ∈ Symbol.inputs) {rest : List Symbol}
    (hrest : ∀ x ∈ rest, x ∈ Symbol.inputs) (hr : r.headD .blank = .blank) :
    InnerWalk setup (rest.length + 1) ⟨.setup (.carry s first), l, plainCells rest ++ r⟩
      ⟨.setup .closeFirst, l ++ carried s first :: plainCells rest, r.tail⟩ := by
  induction rest generalizing s first l with
  | nil => exact Walk.right (carry_mem_setup hs first).2 hr trivial
  | cons x rest ih =>
    have hx : x ∈ Symbol.inputs := hrest x (List.mem_cons_self ..)
    have hstep : InnerWalk setup 1 ⟨.setup (.carry s first), l, plainCells (x :: rest) ++ r⟩
        ⟨.setup (.carry x false), l ++ [carried s first], plainCells rest ++ r⟩ :=
      Walk.right ((carry_mem_setup hs first).1 x hx) rfl trivial
    have htail := ih (l := l ++ [carried s first]) false hx
      fun y hy => hrest y (List.mem_cons_of_mem _ hy)
    refine (hstep.trans htail).congr ?_ rfl ?_
    · rw [List.length_cons, Nat.add_comm]
    · simp [carried, plainCells]

/-- An empty input has a blank with a head for its tape. -/
theorem walk_start_blank (hr : r.headD .blank = .blank) :
    InnerWalk setup 1 ⟨.setup .start, [], r⟩ ⟨.setup .emptyInput, [separator], r.tail⟩ :=
  Walk.right (l := []) (c := .blank) (by simp [setup]) hr trivial

theorem walk_emptyInput (hr : r.headD .blank = .blank) :
    InnerWalk setup 1 ⟨.setup .emptyInput, l, r⟩
      ⟨.setup .closeFirst, l ++ [dotted .blank], r.tail⟩ :=
  Walk.right (c := .blank) (by simp [setup]) hr trivial

/-- The region of the input is closed. -/
theorem walk_closeFirst (hr : r.headD .blank = .blank) :
    InnerWalk setup 1 ⟨.setup .closeFirst, l, r⟩
      ⟨.setup .openSecond, l ++ [separator], r.tail⟩ :=
  Walk.right (c := .blank) (by simp [setup]) hr trivial

/-- The region of an empty tape is put behind it, and closed. -/
theorem walk_openSecond (hr : r.headD .blank = .blank) :
    InnerWalk setup 1 ⟨.setup .openSecond, l, r⟩
      ⟨.setup .closeSecond, l ++ [dotted .blank], r.tail⟩ :=
  Walk.right (c := .blank) (by simp [setup]) hr trivial

theorem walk_closeSecond (hr : r.headD .blank = .blank) :
    InnerWalk setup 1 ⟨.setup .closeSecond, l, r⟩
      (.back (.setup (.rewind .second)) l (separator :: r.tail)) :=
  Walk.left (c := .blank) (w := separator) (by simp [setup]) hr trivial

theorem headD_drop (cells : List Cell) (p : Nat) :
    (cells.drop p).headD .blank = cells.getD p .blank := by
  rw [List.headD_eq_head?_getD, List.head?_drop, List.getD_eq_getElem?_getD]

theorem getD_plainCells (raw : List Symbol) (p : Nat) :
    (plainCells raw).getD p .blank = plain (raw.getD p .blank) :=
  List.getD_map raw .blank plain

/-- The input with its first symbol dotted stands behind the leading separator. -/
theorem walk_input {w : List Symbol} (hw : ∀ x ∈ w, x ∈ Symbol.inputs)
    (hr : ∀ p, w.length ≤ p → p < max w.length 1 + 1 →
      (plainCells w ++ r).getD p .blank = .blank) :
    InnerWalk setup (max w.length 1 + 1) ⟨.setup .start, [], plainCells w ++ r⟩
      ⟨.setup .closeFirst, separator :: regionAt (orBlank w) 0,
        (plainCells w ++ r).drop (max w.length 1 + 1)⟩ := by
  cases w with
  | nil =>
    have hfirst : r.headD .blank = .blank := by
      rw [← List.drop_zero (l := r), headD_drop]
      exact hr 0 (by simp) (by simp)
    have hsecond : r.tail.headD .blank = .blank := by
      rw [← List.drop_one, headD_drop]
      exact hr 1 (by simp) (by simp)
    refine ((walk_start_blank hfirst).trans (walk_emptyInput hsecond)).congr rfl rfl ?_
    simp [plainCells, orBlank, regionAt, ← List.drop_one]
  | cons s rest =>
    have hs : s ∈ Symbol.inputs := hw s (List.mem_cons_self ..)
    have hmem := start_mem_setup hs
    have hblank : r.headD .blank = .blank := by
      have hend := hr (s :: rest).length (Nat.le_refl _) (by simp)
      rw [← headD_drop] at hend
      simpa [plainCells] using hend
    have hstart : InnerWalk setup 1 ⟨.setup .start, [], plainCells (s :: rest) ++ r⟩
        ⟨.setup (.carry s true), [separator], plainCells rest ++ r⟩ :=
      Walk.right (l := []) hmem rfl trivial
    have hcarry := walk_carry (l := [separator]) true hs
      (fun x hx => hw x (List.mem_cons_of_mem _ hx)) hblank
    refine (hstart.trans hcarry).congr ?_ rfl ?_
    · rw [List.length_cons]
      omega
    · simp [plainCells, orBlank, regionAt, carried, List.drop_append]

/-- The whole layout, up to the leading separator.  What is behind the laid-out tape stays. -/
theorem walk_setup {w : List Symbol} (hw : ∀ x ∈ w, x ∈ Symbol.inputs)
    (hr : ∀ p, w.length ≤ p → p < Equivalence.layoutLength w.length →
      (plainCells w ++ r).getD p .blank = .blank) :
    InnerWalk setup (2 * Equivalence.layoutLength w.length - 2)
      ⟨.setup .start, [], plainCells w ++ r⟩
      ⟨.setup (.rewind .first), [],
        encode w [] ++ (plainCells w ++ r).drop (Equivalence.layoutLength w.length)⟩ := by
  have hrewind : rewind (.setup (.rewind .second)) (.setup (.rewind .first))
      (.block 0 .enter) ⊆ setup :=
    List.subset_append_right _ _
  unfold Equivalence.layoutLength at hr ⊢
  generalize hm : max w.length 1 = m at hr ⊢
  have hblank : ∀ p, m + 1 ≤ p → p < m + 4 →
      ((plainCells w ++ r).drop p).headD .blank = .blank := by
    intro p hle hlt
    rw [headD_drop]
    exact hr p (by omega) hlt
  have hinput := walk_input hw fun p hle hlt => hr p hle (by omega)
  rw [hm] at hinput
  have hclose := walk_closeFirst (l := separator :: regionAt (orBlank w) 0)
    (hblank (m + 1) (Nat.le_refl _) (by omega))
  rw [List.tail_drop] at hclose
  have hopen := walk_openSecond (l := separator :: regionAt (orBlank w) 0 ++ [separator])
    (hblank (m + 2) (by omega) (by omega))
  rw [List.tail_drop] at hopen
  have hlast := walk_closeSecond
    (l := separator :: regionAt (orBlank w) 0 ++ [separator] ++ [dotted .blank])
    (hblank (m + 3) (by omega) (by omega))
  rw [List.tail_drop, List.append_assoc, List.singleton_append] at hlast
  have hback2 : InnerWalk (rewind (.setup (.rewind .second)) (.setup (.rewind .first))
      (.block 0 .enter)) _ _ _ :=
    walk_rewind_second (l := separator :: regionAt (orBlank w) 0) (z := [dotted .blank])
      (r := separator :: (plainCells w ++ r).drop (m + 4)) (by decide) trivial trivial
  have hback1 : InnerWalk (rewind (.setup (.rewind .second)) (.setup (.rewind .first))
      (.block 0 .enter)) _ _ _ :=
    walk_rewind_first (z := regionAt (orBlank w) 0)
      (r := separator :: ([dotted .blank] ++ separator :: (plainCells w ++ r).drop (m + 4)))
      (regionAt_inRegion _ _) trivial
  have hlength : (orBlank w).length = m := by
    rw [← hm]
    cases w with
    | nil => rfl
    | cons s rest => simp [orBlank]
  rw [List.append_assoc, List.singleton_append] at hopen
  refine (((hinput.trans hclose).trans (hopen.trans hlast)).trans
    ((hback2.trans hback1).subset hrewind)).congr ?_ rfl ?_
  · rw [length_regionAt, hlength, List.length_singleton]
    omega
  · simp [encode, TapePair.cells, orBlank, regionAt, plainCells]

end Setup

/-- What a two-tape machine is loaded with, laid out. -/
theorem cells_keptPair_ofList (first second : List Symbol) :
    (keptPair (.ofList first, .ofList second)).cells = encode first second := by
  have hsettle (tape : List Symbol) :
      (Tape.ofList tape : Tape Symbol.blank).settle.cells.toList = orBlank tape := by
    cases tape with
    | nil => rfl
    | cons s rest => simp [Tape.ofList, Tape.settle, orBlank]
  simp only [keptPair, hsettle]
  rfl

theorem length_encode_nil (w : List Symbol) :
    (encode w []).length = Equivalence.layoutLength w.length := by
  cases w with
  | nil => rfl
  | cons s rest => simp [encode, TapePair.length_cells, orBlank, Equivalence.layoutLength]

/-- The number of steps laying out the tape takes. -/
def layoutSteps (inputLength : Nat) : Nat :=
  2 * Equivalence.layoutLength inputLength - 1

/-- Where the cells behind the input are blank as far as the layout reaches, the machine comes
to its first block, and enters none before.  What is behind the laid-out tape stays. -/
theorem Reduced.layout_of_blank {t : TwoTapeTable} {one : OneTapeTable} (h : Reduced t one)
    {w r : List Symbol} (hw : ∀ x ∈ w, x ∈ Symbol.inputs)
    (hblank : ∀ p, w.length ≤ p → p < Equivalence.layoutLength w.length →
      (w ++ r).getD p .blank = .blank) :
    Quiet t.size one (.oneTape (w ++ r)) (layoutSteps w.length) ∧
      one.step^[layoutSteps w.length] (.oneTape (w ++ r)) =
        ⟨entry 0, .ofList (encode w [] ++
            plainCells ((w ++ r).drop (Equivalence.layoutLength w.length))),
          layoutSteps w.length, none⟩ := by
  have hcells : plainCells (w ++ r) = plainCells w ++ plainCells r := List.map_append
  have hstart : Config.oneTape (w ++ r) =
      Spot.config t.size ⟨.setup .start, [], plainCells w ++ plainCells r⟩ 0 := by
    rw [← hcells]
    rfl
  have hwalk := walk_setup (r := plainCells r) hw fun p hle hlt => by
    rw [← hcells, getD_plainCells, hblank p hle hlt]
  obtain ⟨hlast, hquiet⟩ := h.quiet_of_walk (hwalk.subset setup_subset_program) 0
  have hcount : layoutSteps w.length = 2 * Equivalence.layoutLength w.length - 2 + 1 := by
    rw [layoutSteps, Equivalence.layoutLength]
    omega
  have hleave : pass (.setup (.rewind .first)) separator (.block 0 .enter) .left ∈
      program t := by
    refine setup_subset_program (List.mem_append_right _ ?_)
    simp [rewind]
  have hverdict := h.verdictAt_index (x := .block 0 .enter) t.size_pos (by simp)
  rw [hcount, hstart]
  refine ⟨hquiet, ?_⟩
  rw [Function.iterate_succ_apply', hlast,
    h.step_config hleave rfl (by simp [pass, Spot.scan, encode, TapePair.cells])]
  simp only [pass, hverdict]
  simp [Spot.follow, Spot.tape, Spot.cells, encode, TapePair.cells, Tape.ofList,
    Role.index, BlockRole.offset, plainCells]

/-- The machine comes to its first block, and enters none before. -/
theorem Reduced.layout {t : TwoTapeTable} {one : OneTapeTable} (h : Reduced t one)
    {w : List Symbol} (hw : ∀ x ∈ w, x ∈ Symbol.inputs) :
    Quiet t.size one (.oneTape w) (layoutSteps w.length) ∧
      one.step^[layoutSteps w.length] (.oneTape w) =
        atBlock 0 (keptPair (.ofList w, .ofList [])) 0 (layoutSteps w.length) := by
  have hbehind : w.drop (Equivalence.layoutLength w.length) = [] :=
    List.drop_eq_nil_of_le (by unfold Equivalence.layoutLength; omega)
  obtain ⟨hquiet, hlast⟩ := h.layout_of_blank (r := []) hw fun p hle _ => by
    rw [List.append_nil, List.getD_eq_default _ _ hle]
  rw [List.append_nil] at hquiet hlast
  refine ⟨hquiet, hlast.trans ?_⟩
  rw [hbehind, atBlock, cells_keptPair_ofList]
  simp [plainCells, blanks]

end TapeReduction.Reduction
