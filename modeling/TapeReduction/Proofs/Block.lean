import TapeReduction.Proofs.Fragments
import TapeReduction.Proofs.Marks

/-!
# One block makes one step

The block of a state is followed from its entry to the leading separator, where
its leaf is left again.  Whatever the tapes hold and wherever the heads are, the
tape then shows the two tapes after one step of the two-tape machine.  On the
way no entry of a block is passed, and the tape is always marked for the role
the machine is in.
-/

namespace TapeReduction.Reduction

open Cell (separator dotted plain)

/-- The role neither enters a block nor accepts. -/
def Role.Inner : Role → Prop
  | .block _ .enter => False
  | .accept => False
  | _ => True

theorem Role.Inner.ne_accept {x : Role} (h : x.Inner) : x ≠ .accept := by
  rintro rfl
  exact h

theorem Role.Inner.index_ne_entry {x : Role} (h : x.Inner) {states q : Nat} (hq : q < states) :
    x.index states ≠ entry q := by
  apply Role.index_ne_entry hq
  rintro state rfl
  exact h

/-- A walk that enters no block. -/
abbrev InnerWalk (prog : List Instruction) : Nat → Spot → Spot → Prop :=
  Walk prog fun x _ => x.Inner

/-- Inside a block, on a tape that is marked for the role. -/
def Midway (t : TwoTapeTable) (x : Role) (cells : List Cell) : Prop :=
  x.Inner ∧ Sound t x cells

/-- A walk through a block of the machine reduced from a table. -/
abbrev BlockWalk (t : TwoTapeTable) (prog : List Instruction) : Nat → Spot → Spot → Prop :=
  Walk prog (Midway t)

/-- The blanks behind the last separator. -/
def blanks (k : Nat) : List Cell :=
  List.replicate k .blank

theorem headD_blanks (k : Nat) : (blanks k).headD .blank = .blank := by
  cases k <;> rfl

theorem tail_blanks (k : Nat) : (blanks k).tail = blanks (k - 1) := by
  simp [blanks]

theorem eq_blank_of_mem_blanks (k : Nat) : ∀ c ∈ blanks k, c = .blank := by
  intro c hc
  exact List.eq_of_mem_replicate hc

theorem inRegion_of_separator_notMem {cells : List Cell} (h : separator ∉ cells) :
    ∀ c ∈ cells, c ∈ Cell.inRegion := by
  intro c hc
  rcases c with s | s | _
  · exact plain_mem_inRegion s
  · exact dotted_mem_inRegion s
  · exact absurd hc h

theorem plainCells_inRegion (symbols : List Symbol) :
    ∀ c ∈ plainCells symbols, c ∈ Cell.inRegion :=
  inRegion_of_separator_notMem (Stretch.plainCells symbols).separator_notMem

theorem regionAt_inRegion (tape : List Symbol) (head : Nat) :
    ∀ c ∈ regionAt tape head, c ∈ Cell.inRegion :=
  inRegion_of_separator_notMem (separator_notMem_regionAt tape head)

/-- A region that has just grown has its head on its last cell. -/
theorem stretch_grown (symbols : List Symbol) :
    Stretch 1 (plainCells symbols ++ [dotted .blank]) :=
  (Stretch.plainCells symbols).append (Stretch.dotted .blank)

theorem head_lt_of_advance_eq {w s : Symbol} {m : Move} {before after tape : List Symbol}
    {head : Nat} (h : advance w m (before ++ s :: after) before.length = (tape, head)) :
    head < tape.length := by
  have hseat : before.length < (before ++ s :: after).length := by simp
  have hlt := head_advance_lt hseat w m
  rwa [h] at hlt

/-! ## Roles of a leaf -/

section LeafRoles

variable {t : TwoTapeTable} {q : Nat} {read : Symbol × Symbol}
  {rule : Rule (Symbol × Symbol) (Move × Move)}

theorem midway_leafRole (hrule : t.rule? q read = some rule) (r : LeafRole)
    (hfits : r.Fits rule.move) {cells : List Cell} (hmarked : Marked (leafRole q read r) cells) :
    Midway t (leafRole q read r) cells :=
  ⟨trivial, Draft.lt_size_of_rule? hrule, ⟨rule, hrule, hfits⟩, hmarked⟩

/-- The cell in hand has left its region, and its dot, if it has one, too. -/
theorem marked_carryCell {first x y rest : List Cell} {d : Cell} (hfirst : Stretch 1 first)
    (hsecond : Stretch 1 (x ++ d :: y)) (hblank : ∀ c ∈ rest, c = .blank) :
    Marked (leafRole q read (.carryCell d))
      (separator :: (first ++ separator :: (x ++ y ++ separator :: rest))) := by
  have herase := hsecond.erase
  cases d with
  | plain s =>
    have hlaid : Laid (separator :: (first ++ separator :: (x ++ y ++ separator :: rest))) :=
      ⟨first, x ++ y, rest, hfirst, herase, hblank, rfl⟩
    exact hlaid.marked rfl rfl
  | dotted s => exact marked_of_lacksDot rfl rfl hfirst herase rfl hblank
  | separator => exact absurd (by simp) hsecond.separator_notMem

end LeafRoles

section Heads

variable {t : TwoTapeTable} {q : Nat} {read : Symbol × Symbol}
  {rule : Rule (Symbol × Symbol) (Move × Move)} (hrule : t.rule? q read = some rule)
  {s : Symbol} {before after tape : List Symbol} {head : Nat} (k : Nat)

include hrule

/-- Where the role lacks nothing, a tape with both heads in their regions is marked for it. -/
theorem midway_laid (r : LeafRole) (hfits : r.Fits rule.move)
    (hseparator : (leafRole q read r).lacksSeparator = false)
    (hdot : (leafRole q read r).lacksDot = false) {first second : List Cell}
    (hfirst : Stretch 1 first) (hsecond : Stretch 1 second) :
    Midway t (leafRole q read r)
      (separator :: (first ++ separator :: (second ++ separator :: blanks k))) := by
  have hlaid : Laid (separator :: (first ++ separator :: (second ++ separator :: blanks k))) :=
    ⟨first, second, blanks k, hfirst, hsecond, eq_blank_of_mem_blanks k, rfl⟩
  exact midway_leafRole hrule r hfits (hlaid.marked hseparator hdot)

/-! ### The second head -/

section Second

variable {first : List Cell} (hfirst : Stretch 1 first)
include hfirst

/-- The second head would go left of its region and is put back on its first cell. -/
theorem blockWalk_moveSecond_restore (hleft : rule.move.2 = .left) (w : Symbol)
    (a : List Symbol) :
    BlockWalk t (moveSecond (leafRole q read) w .left) 2
      ⟨leafRole q read .probeSecond, separator :: first,
        separator :: plain w :: (plainCells a ++ separator :: blanks k)⟩
      (.back (leafRole q read .returnSecond) (separator :: first ++ [separator])
        (dotted w :: (plainCells a ++ separator :: blanks k))) := by
  have hrestore : Midway t (leafRole q read .restoreSecond) (separator :: first ++
      separator :: plain w :: (plainCells a ++ separator :: blanks k)) :=
    midway_leafRole hrule .restoreSecond hleft (marked_of_lacksDot rfl rfl hfirst
      (Stretch.plainCells (w :: a)) rfl (eq_blank_of_mem_blanks k))
  have hreturn := midway_laid hrule k .returnSecond trivial rfl rfl hfirst (Stretch.split [] w a)
  have hwalk : BlockWalk t (restoreHead (leafRole q read .probeSecond)
      (leafRole q read .restoreSecond) (leafRole q read .returnSecond) w) 2 _ _ :=
    walk_restoreHead hrestore hreturn
  exact hwalk.subset (List.subset_append_right _ _)

/-- The second head goes to a cell of its region. -/
theorem blockWalk_moveSecond_inside (w : Symbol) (m : Move) (b : List Symbol) (x : Symbol)
    (a : List Symbol) :
    BlockWalk t (moveSecond (leafRole q read) w m) 1
      ⟨leafRole q read .probeSecond, separator :: first ++ separator :: plainCells b,
        plain x :: (plainCells a ++ separator :: blanks k)⟩
      (.back (leafRole q read .returnSecond) (separator :: first ++ separator :: plainCells b)
        (dotted x :: (plainCells a ++ separator :: blanks k))) := by
  have hreturn := midway_laid hrule k .returnSecond trivial rfl rfl hfirst (Stretch.split b x a)
  have hwalk : BlockWalk t (putHead (leafRole q read .probeSecond)
      (leafRole q read .returnSecond)) 1 _ _ :=
    walk_putHead (l := separator :: first ++ separator :: plainCells b) (x := x)
      (r := plainCells a ++ separator :: blanks k) (by simpa using hreturn)
  exact hwalk.subset (List.subset_append_left _ _)

/-- The second head leaves its region to the right, which grows by a blank. -/
theorem blockWalk_moveSecond_grow (hright : rule.move.2 = .right) (w : Symbol)
    (b : List Symbol) :
    BlockWalk t (moveSecond (leafRole q read) w .right) 2
      ⟨leafRole q read .probeSecond, separator :: first ++ separator :: plainCells b,
        separator :: blanks k⟩
      (.back (leafRole q read .returnSecond)
        (separator :: first ++ separator :: (plainCells b ++ [dotted .blank]))
        (separator :: blanks (k - 1))) := by
  have hextend : Midway t (leafRole q read .extendSecond) (separator :: first ++
      separator :: plainCells b ++ dotted .blank :: blanks k) := by
    have hmarked : Marked (leafRole q read .extendSecond) _ :=
      marked_of_lacksSeparator rfl rfl hfirst
        ((stretch_grown b).append (Stretch.blank (eq_blank_of_mem_blanks k))) rfl
    simpa using midway_leafRole hrule .extendSecond hright hmarked
  have hreturn :=
    midway_laid hrule (k - 1) .returnSecond trivial rfl rfl hfirst (stretch_grown b)
  have hwalk : BlockWalk t (moveSecond (leafRole q read) w .right) 2 _ _ :=
    walk_moveSecond_grow (l := separator :: first ++ separator :: plainCells b)
      (headD_blanks k) hextend (by simpa [tail_blanks] using hreturn)
  refine hwalk.congr rfl rfl ?_
  simp [tail_blanks]

/-- The second head moves.  Afterwards the machine is somewhere in the second region,
with `z` between the separator and its head. -/
theorem exists_walk_moveSecond
    (hnext : advance rule.write.2 rule.move.2 (before ++ s :: after) before.length = (tape, head))
    (source : Role) :
    ∃ n z y, n ≤ 2 ∧ z.length ≤ tape.length ∧ (∀ c ∈ z, c ∈ Cell.inRegion) ∧
      z ++ y = regionAt tape head ++ separator ::
        blanks (k - (tape.length - (before ++ s :: after).length)) ∧
      BlockWalk t (moveSecond (leafRole q read) rule.write.2 rule.move.2) n
        (Spot.follow ⟨source, separator :: first ++ separator :: plainCells before,
          dotted s :: (plainCells after ++ separator :: blanks k)⟩
          ⟨source, dotted s, leafRole q read .probeSecond, plain rule.write.2, rule.move.2⟩)
        (.back (leafRole q read .returnSecond) (separator :: first ++ separator :: z) y) := by
  obtain ⟨target, ⟨w1, w⟩, m1, m⟩ := rule
  dsimp only at hnext ⊢
  rcases advance_cases w s before after m with
    ⟨rfl, rfl, h⟩ | ⟨b, x, rfl, rfl, h⟩ | ⟨x, a, rfl, rfl, h⟩ | ⟨rfl, rfl, h⟩
  · -- Left off the first cell.
    obtain ⟨rfl, rfl⟩ := Prod.mk.inj (hnext.symm.trans h)
    refine ⟨2, [], _, Nat.le_refl 2, by simp, by simp, ?_,
      (blockWalk_moveSecond_restore hrule k hfirst rfl w after).congr rfl ?_ rfl⟩
    · simp [regionAt]
    · exact (Spot.follow_left (l := separator :: first) ..).symm
  · -- Left inside the region.
    obtain ⟨rfl, rfl⟩ := Prod.mk.inj (hnext.symm.trans h)
    refine ⟨1, plainCells b, _, by decide, by simp [plainCells], plainCells_inRegion b, ?_,
      (blockWalk_moveSecond_inside hrule k hfirst w .left b x (w :: after)).congr rfl ?_ rfl⟩
    · rw [regionAt_split]
      simp [plainCells]
    · have hleft : separator :: first ++ separator :: plainCells (b ++ [x]) =
          (separator :: first ++ separator :: plainCells b) ++ [plain x] := by
        simp [plainCells]
      rw [hleft, Spot.follow_left]
      rfl
  · -- Right inside the region.
    obtain ⟨rfl, rfl⟩ := Prod.mk.inj (hnext.symm.trans h)
    refine ⟨1, plainCells (before ++ [w]), _, by decide, by simp [plainCells],
      plainCells_inRegion _, ?_,
      (blockWalk_moveSecond_inside hrule k hfirst w .right (before ++ [w]) x a).congr rfl ?_ rfl⟩
    · rw [regionAt_split]
      simp
    · simp [Spot.follow, plainCells]
  · -- Right off the last cell.
    obtain ⟨rfl, rfl⟩ := Prod.mk.inj (hnext.symm.trans h)
    refine ⟨2, plainCells (before ++ [w]) ++ [dotted .blank], _, Nat.le_refl 2,
      by simp [plainCells], inRegion_of_separator_notMem (stretch_grown _).separator_notMem, ?_,
      (blockWalk_moveSecond_grow hrule k hfirst rfl w (before ++ [w])).congr rfl ?_ rfl⟩
    · rw [regionAt_split]
      simp [plainCells]
    · simp [Spot.follow, plainCells]

end Second

/-! ### The first head -/

/-- The instructions that move the first head and go back to the leading separator. -/
def moveHome (q : Nat) (read : Symbol × Symbol) (w : Symbol) (m : Move) (next : Role) :
    List Instruction :=
  moveFirst (leafRole q read) w m ++
    rewind (leafRole q read (.rewind .second)) (leafRole q read (.rewind .first)) next

/-- The first head would go left of its region and is put back on its first cell. -/
theorem blockWalk_moveHome_restore (hleft : rule.move.1 = .left) (w : Symbol) (next : Role)
    (a : List Symbol) {c : Cell} {z : List Cell} (hsecond : Stretch 1 (c :: z)) :
    BlockWalk t (moveHome q read w .left next) 2
      ⟨leafRole q read .probeFirst, [], separator :: plain w ::
        (plainCells a ++ separator :: (c :: z ++ separator :: blanks k))⟩
      ⟨leafRole q read (.rewind .first), [], separator :: dotted w ::
        (plainCells a ++ separator :: (c :: z ++ separator :: blanks k))⟩ := by
  have hrestore : Midway t (leafRole q read .restoreFirst) (separator :: plain w ::
      (plainCells a ++ separator :: (c :: z ++ separator :: blanks k))) :=
    midway_leafRole hrule .restoreFirst hleft (marked_of_lacksDot rfl rfl
      (Stretch.plainCells (w :: a)) hsecond rfl (eq_blank_of_mem_blanks k))
  have hback :=
    midway_laid hrule k (.rewind .first) trivial rfl rfl (Stretch.split [] w a) hsecond
  have hwalk : BlockWalk t (moveFirst (leafRole q read) w .left) 2 _ _ :=
    (walk_restoreHead (l := []) hrestore hback).subset (List.subset_append_right _ _)
  exact hwalk.subset (List.subset_append_left _ _)

/-- The first head goes to a cell of its region. -/
theorem blockWalk_moveHome_inside (w : Symbol) (m : Move) (next : Role) (b : List Symbol)
    (x : Symbol) (a : List Symbol) {c : Cell} {z : List Cell} (hsecond : Stretch 1 (c :: z)) :
    BlockWalk t (moveHome q read w m next) (b.length + 1)
      ⟨leafRole q read .probeFirst, separator :: plainCells b,
        plain x :: (plainCells a ++ separator :: (c :: z ++ separator :: blanks k))⟩
      ⟨leafRole q read (.rewind .first), [], separator :: (plainCells b ++ dotted x ::
        (plainCells a ++ separator :: (c :: z ++ separator :: blanks k)))⟩ := by
  have hback : Midway t (leafRole q read (.rewind .first)) (separator :: (plainCells b ++
      dotted x :: (plainCells a ++ separator :: (c :: z ++ separator :: blanks k)))) := by
    simpa using
      midway_laid hrule k (.rewind .first) trivial rfl rfl (Stretch.split b x a) hsecond
  have hinside : BlockWalk t (moveFirst (leafRole q read) w m) 1 _ _ :=
    (walk_putHead (l := separator :: plainCells b) hback).subset (List.subset_append_left _ _)
  have hpass : BlockWalk t (rewind (leafRole q read (.rewind .second))
      (leafRole q read (.rewind .first)) next) _ _ _ :=
    walk_rewind_first (plainCells_inRegion b) hback
  refine ((hinside.subset (List.subset_append_left _ _)).trans
    (hpass.subset (List.subset_append_right _ _))).congr ?_ rfl rfl
  simp only [plainCells, List.length_map]
  omega

/-- The first head leaves its region to the right, and the second region makes room. -/
theorem blockWalk_moveHome_grow (hright : rule.move.1 = .right) (w : Symbol) (next : Role)
    {b : List Symbol} {c : Cell} {z : List Cell} (hsecond : Stretch 1 (c :: z)) :
    BlockWalk t (moveHome q read w .right next) (b.length + 2 * (c :: z).length + 5)
      ⟨leafRole q read .probeFirst, separator :: plainCells b,
        separator :: (c :: z ++ separator :: blanks k)⟩
      ⟨leafRole q read (.rewind .first), [], separator :: (plainCells b ++ [dotted .blank] ++
        separator :: (c :: z ++ separator :: blanks (k - 1)))⟩ := by
  have hz := inRegion_of_separator_notMem hsecond.separator_notMem
  have hgrown := stretch_grown b
  have hblank := eq_blank_of_mem_blanks k
  have hback (side : Side) :=
    midway_laid hrule (k - 1) (.rewind side) trivial rfl rfl hgrown hsecond
  have hseparator : Marked (leafRole q read .carrySeparator) _ :=
    marked_of_lacksSeparator rfl rfl (hgrown.append hsecond) (Stretch.blank hblank) rfl
  have hcarry : ∀ x d y, c :: z = x ++ d :: y → Midway t (leafRole q read (.carryCell d))
      (separator :: (plainCells b ++ [dotted .blank] ++ separator ::
        (x ++ y ++ separator :: blanks k))) := by
    intro x d y heq
    rw [heq] at hsecond
    have hne : d ≠ separator := by
      rintro rfl
      exact hsecond.separator_notMem (by simp)
    exact midway_leafRole hrule (.carryCell d) hne (marked_carryCell hgrown hsecond hblank)
  have hlast : Marked (leafRole q read .carryLast) _ :=
    marked_of_lacksSeparator rfl rfl hgrown (hsecond.append (Stretch.blank hblank)) rfl
  have hgrow : BlockWalk t (moveFirst (leafRole q read) w .right) _ _ _ :=
    walk_moveFirst_grow (l := separator :: plainCells b) hz (headD_blanks k)
      (by simpa using midway_leafRole hrule .carrySeparator hright hseparator)
      (fun x d y heq => by simpa using hcarry x d y heq)
      (by simpa using midway_leafRole hrule .carryLast trivial hlast)
      (by simpa [tail_blanks] using hback .second)
  have hpass2 : BlockWalk t (rewind (leafRole q read (.rewind .second))
      (leafRole q read (.rewind .first)) next) _ _ _ :=
    walk_rewind_second (l := separator :: (plainCells b ++ [dotted .blank]))
      (r := separator :: (blanks k).tail) hz
      (by simpa [tail_blanks] using hback .second) (by simpa [tail_blanks] using hback .first)
  have hpass1 : BlockWalk t (rewind (leafRole q read (.rewind .second))
      (leafRole q read (.rewind .first)) next) _ _ _ :=
    walk_rewind_first (z := plainCells b ++ [dotted .blank])
      (r := separator :: (c :: z ++ separator :: (blanks k).tail))
      (inRegion_of_separator_notMem hgrown.separator_notMem)
      (by simpa [tail_blanks] using hback .first)
  have hleft : separator :: (plainCells b ++ [dotted .blank]) ++ separator :: c :: z =
      separator :: plainCells b ++ dotted .blank :: separator :: c :: z := by
    simp
  rw [hleft] at hpass2
  refine ((hgrow.subset (List.subset_append_left _ _)).trans
    ((hpass2.trans hpass1).subset (List.subset_append_right _ _))).congr ?_ rfl ?_
  · simp only [plainCells, List.length_map, List.length_append, List.length_cons,
      List.length_nil]
    omega
  · simp [tail_blanks]

/-- The first head moves, and the machine goes back to the leading separator.  What the
second region shows stays the same. -/
theorem exists_walk_moveHome
    (hnext : advance rule.write.1 rule.move.1 (before ++ s :: after) before.length = (tape, head))
    (next source : Role) {c : Cell} {z : List Cell} (hsecond : Stretch 1 (c :: z)) :
    ∃ n, n ≤ tape.length + 2 * (c :: z).length + 4 ∧
      BlockWalk t (moveHome q read rule.write.1 rule.move.1 next) n
        (Spot.follow ⟨source, separator :: plainCells before,
          dotted s :: (plainCells after ++ separator :: (c :: z ++ separator :: blanks k))⟩
          ⟨source, dotted s, leafRole q read .probeFirst, plain rule.write.1, rule.move.1⟩)
        ⟨leafRole q read (.rewind .first), [], separator :: (regionAt tape head ++
          separator :: (c :: z ++ separator ::
            blanks (k - (tape.length - (before ++ s :: after).length))))⟩ := by
  obtain ⟨target, ⟨w, w2⟩, m, m2⟩ := rule
  dsimp only at hnext ⊢
  rcases advance_cases w s before after m with
    ⟨rfl, rfl, h⟩ | ⟨b, x, rfl, rfl, h⟩ | ⟨x, a, rfl, rfl, h⟩ | ⟨rfl, rfl, h⟩
  · -- Left off the first cell.
    obtain ⟨rfl, rfl⟩ := Prod.mk.inj (hnext.symm.trans h)
    refine ⟨2, by omega, (blockWalk_moveHome_restore hrule k rfl w next after hsecond).congr
      rfl ?_ ?_⟩
    · simp [Spot.follow, plainCells]
    · simp [regionAt]
  · -- Left inside the region.
    obtain ⟨rfl, rfl⟩ := Prod.mk.inj (hnext.symm.trans h)
    refine ⟨b.length + 1, ?_, (blockWalk_moveHome_inside hrule k w .left next b x (w :: after)
      hsecond).congr rfl ?_ ?_⟩
    · simp only [List.length_append, List.length_cons]
      omega
    · have hleft : separator :: plainCells (b ++ [x]) =
          (separator :: plainCells b) ++ [plain x] := by
        simp [plainCells]
      rw [hleft, Spot.follow_left]
      rfl
    · rw [regionAt_split]
      simp
  · -- Right inside the region.
    obtain ⟨rfl, rfl⟩ := Prod.mk.inj (hnext.symm.trans h)
    refine ⟨(before ++ [w]).length + 1, ?_, (blockWalk_moveHome_inside hrule k w .right next
      (before ++ [w]) x a hsecond).congr rfl ?_ ?_⟩
    · simp only [List.length_append, List.length_cons]
      omega
    · simp [Spot.follow, plainCells]
    · rw [regionAt_split]
      simp
  · -- Right off the last cell.
    obtain ⟨rfl, rfl⟩ := Prod.mk.inj (hnext.symm.trans h)
    refine ⟨_, ?_, (blockWalk_moveHome_grow hrule k rfl w next (b := before ++ [w]) hsecond).congr
      rfl ?_ ?_⟩
    · simp only [List.length_append, List.length_cons, List.length_nil]
      omega
    · simp [Spot.follow, plainCells]
    · rw [regionAt_split]
      simp [plainCells]

end Heads

/-! ## A leaf and its block -/

section Block

variable {t : TwoTapeTable} {q : Nat}

/-- Both heads are found, and nothing has changed by then. -/
theorem walk_to_heads (hq : q < t.size) (before1 after1 before2 after2 : List Symbol)
    (s1 s2 : Symbol) (k : Nat) :
    BlockWalk t (program t) (before1.length + after1.length + before2.length + 3)
      ⟨.block q .enter, [], separator :: (plainCells before1 ++ dotted s1 ::
        (plainCells after1 ++ separator :: (plainCells before2 ++ dotted s2 ::
          (plainCells after2 ++ separator :: blanks k))))⟩
      ⟨.block q (.seekSecond s1), separator :: (plainCells before1 ++ dotted s1 ::
        (plainCells after1 ++ separator :: plainCells before2)),
        dotted s2 :: (plainCells after2 ++ separator :: blanks k)⟩ := by
  have hlaid : Laid (separator :: (plainCells before1 ++ dotted s1 ::
      (plainCells after1 ++ separator :: (plainCells before2 ++ dotted s2 ::
        (plainCells after2 ++ separator :: blanks k))))) :=
    ⟨_, _, _, Stretch.split before1 s1 after1, Stretch.split before2 s2 after2,
      eq_blank_of_mem_blanks k, by simp⟩
  have hmidway (r : BlockRole) (hinner : (Role.block q r).Inner) (hfits : (Role.block q r).Fits t)
      (hsep : (Role.block q r).lacksSeparator = false)
      (hdot : (Role.block q r).lacksDot = false) : Midway t (.block q r) _ :=
    ⟨hinner, hq, hfits, hlaid.marked hsep hdot⟩
  exact (walk_seek q before1 after1 before2 rfl (hmidway .seekFirst trivial trivial rfl rfl)
    (hmidway (.crossFirst s1) trivial trivial rfl rfl)
    (hmidway (.seekSecond s1) trivial trivial rfl rfl)).subset (seek_subset_program hq)

section Parts

variable (q) (read : Symbol × Symbol) (rule : Rule (Symbol × Symbol) (Move × Move))
  (next : Role)

theorem enter_mem_leaf :
    ⟨.block q (.seekSecond read.1), dotted read.2, leafRole q read .probeSecond,
      plain rule.write.2, rule.move.2⟩ ∈ leaf q read rule next := by
  simp [leaf, leafRole]

theorem moveSecond_subset_leaf :
    moveSecond (leafRole q read) rule.write.2 rule.move.2 ⊆ leaf q read rule next := by
  intro i hi
  simp only [leaf, List.mem_append]
  exact .inl (.inl (.inl (.inr hi)))

theorem seekBack_subset_leaf :
    seekBack (leafRole q read) read.1 rule.write.1 rule.move.1 ⊆ leaf q read rule next := by
  intro i hi
  simp only [leaf, List.mem_append]
  exact .inl (.inl (.inr hi))

theorem moveHome_subset_leaf :
    moveHome q read rule.write.1 rule.move.1 next ⊆ leaf q read rule next := by
  intro i hi
  simp only [leaf, List.mem_append]
  rcases List.mem_append.mp hi with hi | hi
  · exact .inl (.inr hi)
  · exact .inr hi

theorem probeFirst_mem_seekBack :
    ⟨leafRole q read .returnFirst, dotted read.1, leafRole q read .probeFirst,
      plain rule.write.1, rule.move.1⟩ ∈
      seekBack (leafRole q read) read.1 rule.write.1 rule.move.1 := by
  simp [seekBack]

end Parts

section Leaf

variable {before1 after1 before2 after2 tape1 tape2 : List Symbol} {s1 s2 : Symbol}
  {head1 head2 : Nat} {rule : Rule (Symbol × Symbol) (Move × Move)}
  (hrule : t.rule? q (s1, s2) = some rule)

include hrule

variable (before1 after1) in
/-- The first half of a leaf: the second head is taken off its cell, moves and is put down,
and the first head is found again. -/
theorem exists_walk_to_first
    (h2 : advance rule.write.2 rule.move.2 (before2 ++ s2 :: after2) before2.length =
      (tape2, head2)) (k : Nat) :
    ∃ n, n ≤ after1.length + tape2.length + 4 ∧
      BlockWalk t (program t) n
        ⟨.block q (.seekSecond s1), separator :: (plainCells before1 ++ dotted s1 ::
          (plainCells after1 ++ separator :: plainCells before2)),
          dotted s2 :: (plainCells after2 ++ separator :: blanks k)⟩
        ⟨leafRole q (s1, s2) .returnFirst, separator :: plainCells before1, dotted s1 ::
          (plainCells after1 ++ separator :: (regionAt tape2 head2 ++ separator ::
            blanks (k - (tape2.length - (before2 ++ s2 :: after2).length))))⟩ := by
  have hprog := leaf_subset_program hrule
  have hfirst := Stretch.split before1 s1 after1
  have hprobe := midway_leafRole hrule .probeSecond trivial (marked_of_lacksDot rfl rfl hfirst
    (Stretch.plainCells (before2 ++ rule.write.2 :: after2)) rfl (eq_blank_of_mem_blanks k))
  have henter : BlockWalk t (program t) 1
      ⟨.block q (.seekSecond s1), separator :: (plainCells before1 ++ dotted s1 ::
        (plainCells after1 ++ separator :: plainCells before2)),
        dotted s2 :: (plainCells after2 ++ separator :: blanks k)⟩ _ :=
    Walk.one (hprog (enter_mem_leaf q (s1, s2) rule _)) rfl rfl
      (by simpa [plainCells] using hprobe)
  obtain ⟨n2, z, y, hn2, hz2, hz, hzy, hsecond⟩ :=
    exists_walk_moveSecond hrule k hfirst h2 (.block q (.seekSecond s1))
  have hsecond' :=
    hsecond.subset (List.Subset.trans (moveSecond_subset_leaf q (s1, s2) rule _) hprog)
  have hleft (x : List Cell) :
      separator :: (plainCells before1 ++ dotted s1 :: plainCells after1) ++ separator :: x =
        separator :: plainCells before1 ++ dotted s1 :: (plainCells after1 ++ separator :: x) := by
    simp
  rw [hleft, hleft] at hsecond'
  have hlaid : Laid (separator :: plainCells before1 ++ dotted s1 ::
      (plainCells after1 ++ separator :: (z ++ y))) := by
    refine ⟨_, _, _, hfirst, Stretch.regionAt (head_lt_of_advance_eq h2), eq_blank_of_mem_blanks
      (k - (tape2.length - (before2 ++ s2 :: after2).length)), ?_⟩
    rw [hzy]
    simp
  have hback : BlockWalk t (seekBack (leafRole q (s1, s2)) s1 rule.write.1 rule.move.1) _ _ _ :=
    walk_seekBack rule.move.1 (l := separator :: plainCells before1) (r := y) after1 hz
      (midway_leafRole hrule .returnSecond trivial (hlaid.marked rfl rfl))
      (midway_leafRole hrule .returnFirst trivial (hlaid.marked rfl rfl))
  rw [hzy] at hback
  have hback' :=
    hback.subset (List.Subset.trans (seekBack_subset_leaf q (s1, s2) rule _) hprog)
  refine ⟨_, ?_, (henter.trans hsecond').trans hback'⟩
  omega

/-- The second half of a leaf: the first head is taken off its cell, moves and is put down,
and the machine goes back to the leading separator. -/
theorem exists_walk_to_start
    (h1 : advance rule.write.1 rule.move.1 (before1 ++ s1 :: after1) before1.length =
      (tape1, head1)) (hlt : head2 < tape2.length) (k : Nat) :
    ∃ n, n ≤ tape1.length + 2 * tape2.length + 5 ∧
      BlockWalk t (program t) n
        ⟨leafRole q (s1, s2) .returnFirst, separator :: plainCells before1, dotted s1 ::
          (plainCells after1 ++ separator :: (regionAt tape2 head2 ++ separator :: blanks k))⟩
        ⟨leafRole q (s1, s2) (.rewind .first), [], separator :: (regionAt tape1 head1 ++
          separator :: (regionAt tape2 head2 ++ separator ::
            blanks (k - (tape1.length - (before1 ++ s1 :: after1).length))))⟩ := by
  have hprog := leaf_subset_program hrule
  have hregion := Stretch.regionAt hlt
  have hprobe := midway_leafRole hrule .probeFirst trivial (marked_of_lacksDot rfl rfl
    (Stretch.plainCells (before1 ++ rule.write.1 :: after1)) hregion rfl
    (eq_blank_of_mem_blanks k))
  have htake : BlockWalk t (program t) 1
      ⟨leafRole q (s1, s2) .returnFirst, separator :: plainCells before1, dotted s1 ::
        (plainCells after1 ++ separator :: (regionAt tape2 head2 ++ separator :: blanks k))⟩ _ :=
    Walk.one (hprog (seekBack_subset_leaf q (s1, s2) rule _
      (probeFirst_mem_seekBack q (s1, s2) rule))) rfl rfl (by simpa [plainCells] using hprobe)
  obtain ⟨c, z, hcz⟩ : ∃ c z, regionAt tape2 head2 = c :: z := by
    apply List.exists_cons_of_length_pos
    rw [length_regionAt]
    omega
  rw [hcz] at hregion
  obtain ⟨n, hn, hhome⟩ := exists_walk_moveHome hrule k h1 (destination t rule.target)
    (leafRole q (s1, s2) .returnFirst) hregion
  have hhome' := hhome.subset
    (List.Subset.trans (moveHome_subset_leaf q (s1, s2) rule _) hprog)
  rw [← hcz] at hhome' hn
  rw [length_regionAt] at hn
  refine ⟨_, ?_, htake.trans hhome'⟩
  omega

/-- The leaf of a rule, from where both heads have been read to the leading separator. -/
theorem exists_walk_leaf
    (h1 : advance rule.write.1 rule.move.1 (before1 ++ s1 :: after1) before1.length =
      (tape1, head1))
    (h2 : advance rule.write.2 rule.move.2 (before2 ++ s2 :: after2) before2.length =
      (tape2, head2)) (k : Nat) :
    ∃ n, n ≤ tape1.length + after1.length + 3 * tape2.length + 9 ∧
      BlockWalk t (program t) n
        ⟨.block q (.seekSecond s1), separator :: (plainCells before1 ++ dotted s1 ::
          (plainCells after1 ++ separator :: plainCells before2)),
          dotted s2 :: (plainCells after2 ++ separator :: blanks k)⟩
        ⟨leafRole q (s1, s2) (.rewind .first), [], separator :: (regionAt tape1 head1 ++
          separator :: (regionAt tape2 head2 ++ separator ::
            blanks (k - (tape2.length - (before2 ++ s2 :: after2).length) -
              (tape1.length - (before1 ++ s1 :: after1).length))))⟩ := by
  obtain ⟨n2, hn2, hsecond⟩ := exists_walk_to_first before1 after1 hrule h2 k
  obtain ⟨n1, hn1, hfirst⟩ := exists_walk_to_start hrule h1 (head_lt_of_advance_eq h2)
    (k - (tape2.length - (before2 ++ s2 :: after2).length))
  refine ⟨n2 + n1, ?_, hsecond.trans hfirst⟩
  omega

end Leaf

/-- A laid-out tape, its heads apart from what is around them. -/
theorem exists_cells_eq {p : TapePair} (hp : p.Seated) :
    ∃ before1 s1 after1 before2 s2 after2,
      p = ⟨(before1 ++ s1 :: after1, before2 ++ s2 :: after2),
        (before1.length, before2.length)⟩ ∧
      p.scan = (s1, s2) ∧
      p.cells = separator :: (plainCells before1 ++ dotted s1 :: (plainCells after1 ++
        separator :: (plainCells before2 ++ dotted s2 :: (plainCells after2 ++
          [separator])))) := by
  obtain ⟨⟨tape1, tape2⟩, head1, head2⟩ := p
  obtain ⟨before1, s1, after1, rfl, rfl⟩ := exists_split hp.1
  obtain ⟨before2, s2, after2, rfl, rfl⟩ := exists_split hp.2
  refine ⟨before1, s1, after1, before2, s2, after2, rfl, ?_, ?_⟩
  · simp [TapePair.scan]
  · simp [TapePair.cells, regionAt_split]

theorem laid_cells {p : TapePair} (hp : p.Seated) (k : Nat) : Laid (p.cells ++ blanks k) := by
  refine ⟨_, _, _, Stretch.regionAt hp.1, Stretch.regionAt hp.2, eq_blank_of_mem_blanks k, ?_⟩
  simp [TapePair.cells]

theorem exists_walk_block {p : TapePair} (hp : p.Seated)
    {rule : Rule (Symbol × Symbol) (Move × Move)} (hrule : t.rule? q p.scan = some rule)
    (k : Nat) :
    ∃ n, n < 4 * (p.advance rule.write rule.move).cells.length + 16 ∧
      BlockWalk t (program t) n ⟨.block q .enter, [], p.cells ++ blanks k⟩
        ⟨leafRole q p.scan (.rewind .first), [], (p.advance rule.write rule.move).cells ++
          blanks (k - ((p.advance rule.write rule.move).cells.length - p.cells.length))⟩ := by
  obtain ⟨before1, s1, after1, before2, s2, after2, hpair, hscan, hcells⟩ := exists_cells_eq hp
  rw [hscan] at hrule ⊢
  obtain ⟨⟨tape1, head1⟩, h1⟩ : ∃ next1, advance rule.write.1 rule.move.1
      (before1 ++ s1 :: after1) before1.length = next1 := ⟨_, rfl⟩
  obtain ⟨⟨tape2, head2⟩, h2⟩ : ∃ next2, advance rule.write.2 rule.move.2
      (before2 ++ s2 :: after2) before2.length = next2 := ⟨_, rfl⟩
  have hadvance : p.advance rule.write rule.move = ⟨(tape1, tape2), (head1, head2)⟩ := by
    rw [hpair]
    simp only [TapePair.advance, h1, h2]
  have hseek := walk_to_heads (Draft.lt_size_of_rule? hrule) before1 after1 before2 after2
    s1 s2 k
  obtain ⟨n, hn, hleaf⟩ := exists_walk_leaf hrule h1 h2 k
  have hlen1 := length_advance_bounds (before1 ++ s1 :: after1) before1.length rule.write.1
    rule.move.1
  have hlen2 := length_advance_bounds (before2 ++ s2 :: after2) before2.length rule.write.2
    rule.move.2
  rw [h1] at hlen1
  rw [h2] at hlen2
  dsimp only at hlen1 hlen2
  have hgrowth : k - (tape2.length - (before2 ++ s2 :: after2).length) -
      (tape1.length - (before1 ++ s1 :: after1).length) =
      k - ((p.advance rule.write rule.move).cells.length - p.cells.length) := by
    rw [hadvance, hpair, TapePair.length_cells, TapePair.length_cells]
    dsimp only
    omega
  rw [hgrowth] at hleaf
  refine ⟨_, ?_, (hseek.trans hleaf).congr rfl ?_ ?_⟩
  · rw [hadvance, TapePair.length_cells]
    simp only [List.length_append, List.length_cons] at hlen1 hlen2 ⊢
    omega
  · rw [hcells]
    simp
  · rw [hadvance]
    simp [TapePair.cells]

end Block

end TapeReduction.Reduction
