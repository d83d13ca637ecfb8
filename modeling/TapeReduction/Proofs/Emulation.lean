import TapeReduction.Proofs.Block

/-!
# A block emulates a step

The walk through a block as a run of the reduced machine.  The machine is
followed from the entry of a block, on two tapes laid out with any number of
blanks behind them, to the next entry or to where it halts.  In between it runs
and enters no block.
-/

namespace TapeReduction.Reduction

open Cell (separator dotted plain)

/-- The machine is at the entry of the block of one of `states` states. -/
def AtEntry (states : Nat) (c : Config OneTape) : Prop :=
  ∃ q < states, c.state = entry q

/-- The machine runs on for `n` steps, and before the last of them enters no block. -/
def Quiet (states : Nat) (one : OneTapeTable) (start : Config OneTape) (n : Nat) : Prop :=
  ∀ j, 0 < j → j < n →
    (one.step^[j] start).halted = none ∧ ¬AtEntry states (one.step^[j] start)

/-- The machine at the entry of a block, on two tapes with `k` blanks behind them. -/
def atBlock (q : Nat) (p : TapePair) (k steps : Nat) : Config OneTape :=
  ⟨entry q, .ofList (p.cells ++ blanks k), steps, none⟩

/-- The state plays a role, and the tape is marked for it. -/
def Tidy (t : TwoTapeTable) (c : Config OneTape) : Prop :=
  ∃ x, c.state = x.index t.size ∧ Sound t x c.tapes.cells.toList

theorem not_atEntry_of_inner {states : Nat} {c : Config OneTape} {x : Role} (hx : x.Inner)
    (hstate : c.state = x.index states) : ¬AtEntry states c := by
  rintro ⟨q, hq, hentry⟩
  exact hx.index_ne_entry hq (hstate.symm.trans hentry)

theorem not_atEntry_of_accepting {states : Nat} {c : Config OneTape}
    (hstate : c.state = accepting states) : ¬AtEntry states c := by
  rintro ⟨q, hq, hentry⟩
  rw [hstate, accepting_eq, entry_eq] at hentry
  omega

namespace Reduced

variable {t : TwoTapeTable} {one : OneTapeTable} {q : Nat} {p : TapePair}

theorem quiet_of_walk (h : Reduced t one) {n : Nat} {a b : Spot}
    (hwalk : InnerWalk (program t) n a b) (steps : Nat) :
    one.step^[n] (a.config t.size steps) = b.config t.size (steps + n) ∧
      Quiet t.size one (a.config t.size steps) (n + 1) := by
  obtain ⟨hlast, hbetween⟩ :=
    h.iterate_step_of_walk (fun x _ hx => hx.ne_accept) hwalk steps
  refine ⟨hlast, ?_⟩
  intro j hpos hlt
  obtain ⟨e, he, heq⟩ := hbetween j hpos (by omega)
  rw [heq]
  exact ⟨rfl, not_atEntry_of_inner he rfl⟩

theorem tidy_of_walk (h : Reduced t one) {n : Nat} {a b : Spot}
    (hwalk : BlockWalk t (program t) n a b) (ha : Sound t a.role a.cells) (steps : Nat) :
    ∀ j ≤ n, Tidy t (one.step^[j] (a.config t.size steps)) := by
  intro j hj
  rcases Nat.eq_zero_or_pos j with rfl | hpos
  · exact ⟨a.role, rfl, ha⟩
  · obtain ⟨-, hbetween⟩ := h.iterate_step_of_walk (fun x _ hx => hx.1.ne_accept) hwalk steps
    obtain ⟨e, he, heq⟩ := hbetween j hpos hj
    rw [heq]
    exact ⟨e.role, rfl, he.2⟩

theorem sound_destination {rule : Rule (Symbol × Symbol) (Move × Move)}
    {read : Symbol × Symbol} (hrule : t.rule? q read = some rule) {cells : List Cell}
    (hlaid : Laid cells) : Sound t (destination t rule.target) cells := by
  refine ⟨destination_within hrule, ?_, ?_⟩
  · unfold destination
    split <;> trivial
  · unfold destination
    split
    · exact hlaid.marked rfl rfl
    · exact hlaid.marked rfl rfl

/-- The walk through a block ends on the leading separator, and one more step leads to
where the leaf ends. -/
theorem exists_lap (h : Reduced t one) (hp : p.Seated)
    {rule : Rule (Symbol × Symbol) (Move × Move)} (hrule : t.rule? q p.scan = some rule)
    (k steps : Nat) :
    ∃ n, 0 < n ∧ (n ≤ 4 * (p.advance rule.write rule.move).cells.length + 16 ∧
        ∀ j ≤ n, Tidy t (one.step^[j] (atBlock q p k steps))) ∧
      Quiet t.size one (atBlock q p k steps) n ∧
      one.step^[n] (atBlock q p k steps) =
        ⟨(destination t rule.target).index t.size,
          .ofList ((p.advance rule.write rule.move).cells ++
            blanks (k - ((p.advance rule.write rule.move).cells.length - p.cells.length))),
          steps + n, one.verdictAt ((destination t rule.target).index t.size)⟩ := by
  obtain ⟨n, hn, hwalk⟩ := exists_walk_block hp hrule k
  obtain ⟨hlast, hquiet⟩ := h.quiet_of_walk (hwalk.imp fun _ _ hx => hx.1) steps
  have hleave : pass (leafRole q p.scan (.rewind .first)) separator
      (destination t rule.target) .left ∈ program t := by
    refine leaf_subset_program hrule (List.mem_append_right _ ?_)
    simp [rewind, leafRole]
  have hstart : atBlock q p k steps =
      Spot.config t.size ⟨.block q .enter, [], p.cells ++ blanks k⟩ steps := rfl
  have hend : one.step^[n + 1] (atBlock q p k steps) =
      ⟨(destination t rule.target).index t.size,
        .ofList ((p.advance rule.write rule.move).cells ++
          blanks (k - ((p.advance rule.write rule.move).cells.length - p.cells.length))),
        steps + (n + 1), one.verdictAt ((destination t rule.target).index t.size)⟩ := by
    rw [Function.iterate_succ_apply', hstart, hlast,
      h.step_config hleave rfl (by simp [pass, Spot.scan, TapePair.cells])]
    simp [Spot.follow, pass, Spot.tape, Spot.cells, TapePair.cells, Tape.ofList, Nat.add_assoc]
  refine ⟨n + 1, Nat.succ_pos n, ⟨hn, ?_⟩, hquiet, hend⟩
  intro j hj
  rcases Nat.lt_or_eq_of_le hj with hlt | rfl
  · rw [hstart]
    exact h.tidy_of_walk hwalk ⟨Draft.lt_size_of_rule? hrule, trivial,
      (laid_cells hp k).marked rfl rfl⟩ steps j (Nat.le_of_lt_succ hlt)
  · rw [hend]
    exact ⟨_, rfl, sound_destination hrule (laid_cells (hp.advance _ _) _)⟩

/-- Without a rule the machine looks for both heads and rejects. -/
theorem exists_rejection (h : Reduced t one) (hq : q < t.size) (hp : p.Seated)
    (hrule : t.rule? q p.scan = none) (k steps : Nat) :
    ∃ n, (n < p.cells.length ∧ ∀ j ≤ n + 1, Tidy t (one.step^[j] (atBlock q p k steps))) ∧
      Quiet t.size one (atBlock q p k steps) (n + 1) ∧
      ¬AtEntry t.size (one.step^[n + 1] (atBlock q p k steps)) ∧
      (one.step^[n + 1] (atBlock q p k steps)).halted = some .reject ∧
      (one.step^[n + 1] (atBlock q p k steps)).tapes.cells = (p.cells ++ blanks k).toArray ∧
      (one.step^[n + 1] (atBlock q p k steps)).steps = steps + n := by
  obtain ⟨before1, s1, after1, before2, s2, after2, hpair, hscan, hcells⟩ := exists_cells_eq hp
  rw [hscan] at hrule
  have hwhole : p.cells ++ blanks k = separator :: (plainCells before1 ++ dotted s1 ::
      (plainCells after1 ++ separator :: (plainCells before2 ++ dotted s2 ::
        (plainCells after2 ++ separator :: blanks k)))) := by
    rw [hcells]
    simp
  have hwalk := walk_to_heads hq before1 after1 before2 after2 s1 s2 k
  rw [← hwhole] at hwalk
  have hstart : atBlock q p k steps =
      Spot.config t.size ⟨.block q .enter, [], p.cells ++ blanks k⟩ steps := rfl
  obtain ⟨hlast, hquiet⟩ := h.quiet_of_walk (hwalk.imp fun _ _ hx => hx.1) steps
  have hlaid := laid_cells hp k
  have hend : one.step^[before1.length + after1.length + before2.length + 3 + 1]
      (atBlock q p k steps) = ⟨(Role.block q (.seekSecond s1)).index t.size,
        ⟨(p.cells ++ blanks k).toArray, before1.length + after1.length + before2.length + 3⟩,
        steps + (before1.length + after1.length + before2.length + 3), some .reject⟩ := by
    rw [Function.iterate_succ_apply', hstart, hlast,
      step_config_of_none (h.rule?_seekSecond_eq_none hq hrule), Spot.settle_tape, hwhole]
    simp only [Spot.scan, plainCells, List.headD_eq_head?_getD, List.head?_cons,
      Option.getD_some, List.tail_cons, List.cons_append, List.append_assoc, List.length_cons,
      List.length_append, List.length_map, Config.mk.injEq, Tape.mk.injEq, true_and, and_true]
    omega
  refine ⟨before1.length + after1.length + before2.length + 3, ⟨?_, ?_⟩, hquiet, ?_⟩
  · rw [hpair, TapePair.length_cells]
    simp only [List.length_append, List.length_cons]
    omega
  · intro j hj
    rcases Nat.lt_or_eq_of_le hj with hlt | rfl
    · exact h.tidy_of_walk hwalk ⟨hq, trivial, hlaid.marked rfl rfl⟩ steps j
        (Nat.le_of_lt_succ hlt)
    · rw [hend]
      exact ⟨.block q (.seekSecond s1), rfl, hq, trivial, hlaid.marked rfl rfl⟩
  · rw [hend]
    exact ⟨not_atEntry_of_inner (x := .block q (.seekSecond s1)) trivial rfl, rfl, rfl, rfl⟩

/-- The block of the target is where a leaf ends, unless it is the accepting state. -/
theorem destination_of_ne (h : Reduced t one) {target : Nat} (htarget : target < t.size)
    (hne : target ≠ t.accepting) :
    (destination t target).index t.size = entry target ∧
      one.verdictAt ((destination t target).index t.size) = none := by
  have hrole : destination t target = .block target .enter := if_neg hne
  rw [hrole]
  exact ⟨rfl, h.verdictAt_index (x := .block target .enter) htarget (by simp)⟩

theorem destination_accepting (h : Reduced t one) :
    (destination t t.accepting).index t.size = accepting t.size ∧
      one.verdictAt ((destination t t.accepting).index t.size) =
        some (.accept (accepting t.size)) := by
  have hrole : destination t t.accepting = .accept := if_pos rfl
  rw [hrole]
  exact ⟨rfl, h.verdictAt_accepting⟩

end Reduced

/-- From the entry of a block, on any two laid-out tapes with any number of blanks behind
them, the reduced machine makes one step of the two-tape machine.

With a rule it runs on, entering no block, until the tape shows both tapes after the step
and the head is on the first cell again; it is then at the entry of the target, or has
accepted if the target is the accepting state.  The tape is longer only if the two tapes
need the room.  Without a rule it rejects, having entered no block and changed no cell. -/
theorem block_emulates_step (t : TwoTapeTable) {q : Nat} (hq : q < t.size) {p : TapePair}
    (hp : p.Seated) (k steps : Nat) :
    ∃ one, reduce t = .ok one ∧
      (∀ rule, t.rule? q p.scan = some rule →
        ∃ n rest, 0 < n ∧ Quiet t.size one (atBlock q p k steps) n ∧
          (p.advance rule.write rule.move).cells.length + rest =
            max (p.cells.length + k) (p.advance rule.write rule.move).cells.length ∧
          (rule.target ≠ t.accepting →
            one.step^[n] (atBlock q p k steps) =
              atBlock rule.target (p.advance rule.write rule.move) rest (steps + n)) ∧
          (rule.target = t.accepting →
            one.step^[n] (atBlock q p k steps) =
              ⟨one.accepting, .ofList ((p.advance rule.write rule.move).cells ++ blanks rest),
                steps + n, some (.accept one.accepting)⟩)) ∧
      (t.rule? q p.scan = none →
        ∃ n, Quiet t.size one (atBlock q p k steps) (n + 1) ∧
          ¬AtEntry t.size (one.step^[n + 1] (atBlock q p k steps)) ∧
          (one.step^[n + 1] (atBlock q p k steps)).halted = some .reject ∧
          (one.step^[n + 1] (atBlock q p k steps)).tapes.cells =
            (p.cells ++ blanks k).toArray ∧
          (one.step^[n + 1] (atBlock q p k steps)).steps = steps + n) := by
  obtain ⟨one, hreduce, h⟩ := exists_reduce_eq_ok t
  refine ⟨one, hreduce, ?_, ?_⟩
  · intro rule hrule
    obtain ⟨n, hpos, -, hquiet, hlast⟩ := h.exists_lap hp hrule k steps
    have hgrowth := p.length_cells_advance_bounds rule.write rule.move
    refine ⟨n, k - ((p.advance rule.write rule.move).cells.length - p.cells.length), hpos,
      hquiet, ?_, ?_, ?_⟩
    · omega
    · intro hne
      obtain ⟨hindex, hverdict⟩ := h.destination_of_ne (t.closed _ _ _ hrule) hne
      rw [hlast, hverdict, hindex]
      rfl
    · intro haccept
      obtain ⟨hindex, hverdict⟩ := h.destination_accepting
      rw [hlast, haccept, hverdict, hindex, h.accepting_eq]
  · intro hrule
    obtain ⟨n, -, hreject⟩ := h.exists_rejection hq hp hrule k steps
    exact ⟨n, hreject⟩

/-- Accepts the inputs that start with a one. -/
def leadingOne : TwoTapeTable where
  rows := #[fun key => if key = (.one, .blank) then
      some ⟨1, (.one, .one), (.right, .right)⟩ else none, fun _ => none]
  size_pos := by decide
  closed := by
    intro state key rule hrule
    match state with
    | 0 =>
      obtain ⟨-, hrule⟩ := Option.ite_none_right_eq_some.mp hrule
      rw [← Option.some.inj hrule]
      decide
    | 1 => cases hrule
    | state + 2 => cases hrule
  accepting_rule? _ := rfl

/-- The head of the second tape is on its only cell, so that tape grows. -/
theorem block_emulates_step_leadingOne :
    ∃ one, reduce leadingOne = .ok one ∧ ∃ n,
      one.step^[n] (atBlock 0 ⟨([.one, .zero], [.blank]), (0, 0)⟩ 0 7) =
        ⟨one.accepting,
          .ofList (TapePair.cells ⟨([.one, .zero], [.one, .blank]), (1, 1)⟩ ++ blanks 0), 7 + n,
          some (.accept one.accepting)⟩ := by
  obtain ⟨one, hreduce, hrule, -⟩ := block_emulates_step leadingOne (q := 0) (by decide)
    (p := ⟨([.one, .zero], [.blank]), (0, 0)⟩) ⟨by decide, by decide⟩ 0 7
  obtain ⟨n, rest, -, -, hlength, -, haccept⟩ := hrule _ rfl
  obtain rfl : rest = 0 := Nat.add_left_cancel hlength
  exact ⟨one, hreduce, n, haccept rfl⟩

end TapeReduction.Reduction
