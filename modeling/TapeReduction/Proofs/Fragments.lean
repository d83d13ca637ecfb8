import TapeReduction.Proofs.Region
import TapeReduction.Proofs.Walk

/-!
# What the fragments of a program do

Each fragment of a program is followed from where it is entered to where it is
left, for tapes of any length.  The walks are made of the instructions of the
fragment alone, with the exact number of instructions, and `P` may be any
property that holds of the roles and tapes on the way.
-/

namespace TapeReduction.Reduction

open Cell (separator dotted plain)

variable {P : Role → List Cell → Prop}

theorem plain_mem_inRegion (s : Symbol) : plain s ∈ Cell.inRegion := by
  cases s <;> decide

theorem dotted_mem_inRegion (s : Symbol) : dotted s ∈ Cell.inRegion := by
  cases s <;> decide

theorem mem_symbolAll (s : Symbol) : s ∈ Symbol.all := by
  cases s <;> decide

theorem exists_plain_of_mem_plainCells {symbols : List Symbol} {c : Cell}
    (hc : c ∈ plainCells symbols) : ∃ s, c = plain s := by
  obtain ⟨s, -, rfl⟩ := List.mem_map.mp hc
  exact ⟨s, rfl⟩

/-! ## The way back -/

section Rewind

variable {second first next : Role} {l z r : List Cell}

theorem walk_rewind_second (hz : ∀ c ∈ z, c ∈ Cell.inRegion)
    (hsecond : P second (l ++ separator :: (z ++ r)))
    (hfirst : P first (l ++ separator :: (z ++ r))) :
    Walk (rewind second first next) P (z.length + 1)
      (.back second (l ++ separator :: z) r) (.back first l (separator :: (z ++ r))) := by
  have hpass : ∀ c ∈ z, pass second c second .left ∈ rewind second first next := by
    intro c hc
    simpa [rewind] using .inl ⟨c, hz c hc, .inl rfl⟩
  have hscan := Walk.scanLeft (l := l ++ [separator]) (r := r) hpass (by simpa using hsecond)
  rw [Spot.back_concat, List.append_assoc, List.singleton_append] at hscan
  have hcross : pass second separator first .left ∈ rewind second first next := by
    simp [rewind]
  exact hscan.trans (Walk.left hcross rfl hfirst)

theorem walk_rewind_first (hz : ∀ c ∈ z, c ∈ Cell.inRegion)
    (hfirst : P first (separator :: (z ++ r))) :
    Walk (rewind second first next) P z.length
      (.back first (separator :: z) r) ⟨first, [], separator :: (z ++ r)⟩ := by
  have hpass : ∀ c ∈ z, pass first c first .left ∈ rewind second first next := by
    intro c hc
    simpa [rewind] using .inl ⟨c, hz c hc, .inr rfl⟩
  exact Walk.scanLeft (l := [separator]) (r := r) hpass (by simpa using hfirst)

end Rewind

/-! ## Looking for the heads -/

section Seek

variable (q : Nat) (s : Symbol)

theorem enter_mem_seek :
    pass (.block q .enter) separator (.block q .seekFirst) .right ∈ seek q := by
  simp [seek]

theorem seekFirst_mem_seek :
    pass (.block q .seekFirst) (plain s) (.block q .seekFirst) .right ∈ seek q ∧
      pass (.block q .seekFirst) (dotted s) (.block q (.crossFirst s)) .right ∈ seek q := by
  cases s <;> simp [seek, pass, Symbol.all]

theorem crossFirst_mem_seek (a : Symbol) :
    pass (.block q (.crossFirst a)) (plain s) (.block q (.crossFirst a)) .right ∈ seek q ∧
      pass (.block q (.crossFirst a)) separator (.block q (.seekSecond a)) .right ∈ seek q := by
  cases a <;> cases s <;> simp [seek, pass, Symbol.all]

theorem seekSecond_mem_seek (a : Symbol) :
    pass (.block q (.seekSecond a)) (plain s) (.block q (.seekSecond a)) .right ∈ seek q := by
  cases a <;> cases s <;> simp [seek, pass, Symbol.all]

variable {s}

theorem walk_seek (before1 after1 before2 : List Symbol) {rest cells : List Cell}
    (hcells : separator :: (plainCells before1 ++ dotted s :: (plainCells after1 ++
      separator :: (plainCells before2 ++ rest))) = cells)
    (hfirst : P (.block q .seekFirst) cells) (hcross : P (.block q (.crossFirst s)) cells)
    (hsecond : P (.block q (.seekSecond s)) cells) :
    Walk (seek q) P (before1.length + after1.length + before2.length + 3)
      ⟨.block q .enter, [], cells⟩
      ⟨.block q (.seekSecond s), separator :: (plainCells before1 ++ dotted s ::
        (plainCells after1 ++ separator :: plainCells before2)), rest⟩ := by
  subst hcells
  have hpass1 : ∀ c ∈ plainCells before1,
      pass (.block q .seekFirst) c (.block q .seekFirst) .right ∈ seek q := by
    intro c hc
    obtain ⟨s, rfl⟩ := exists_plain_of_mem_plainCells hc
    exact (seekFirst_mem_seek q s).1
  have hpass2 : ∀ c ∈ plainCells after1,
      pass (.block q (.crossFirst s)) c (.block q (.crossFirst s)) .right ∈ seek q := by
    intro c hc
    obtain ⟨s', rfl⟩ := exists_plain_of_mem_plainCells hc
    exact (crossFirst_mem_seek q s' s).1
  have hpass3 : ∀ c ∈ plainCells before2,
      pass (.block q (.seekSecond s)) c (.block q (.seekSecond s)) .right ∈ seek q := by
    intro c hc
    obtain ⟨s', rfl⟩ := exists_plain_of_mem_plainCells hc
    exact seekSecond_mem_seek q s' s
  have henter := Walk.right (l := []) (r := separator :: (plainCells before1 ++ dotted s ::
      (plainCells after1 ++ separator :: (plainCells before2 ++ rest))))
    (enter_mem_seek q) rfl hfirst
  have hscan1 := Walk.scanRight (l := [separator]) (r := dotted s :: (plainCells after1 ++
      separator :: (plainCells before2 ++ rest))) hpass1 (by simpa using hfirst)
  have hdot := Walk.right (l := [separator] ++ plainCells before1) (r := dotted s ::
      (plainCells after1 ++ separator :: (plainCells before2 ++ rest)))
    (seekFirst_mem_seek q s).2 rfl (by simpa using hcross)
  have hscan2 := Walk.scanRight (l := [separator] ++ plainCells before1 ++ [dotted s])
    (r := separator :: (plainCells before2 ++ rest)) hpass2 (by simpa using hcross)
  have hsep := Walk.right (l := [separator] ++ plainCells before1 ++ [dotted s] ++
      plainCells after1) (r := separator :: (plainCells before2 ++ rest))
    (crossFirst_mem_seek q s s).2 rfl (by simpa using hsecond)
  have hscan3 := Walk.scanRight (l := [separator] ++ plainCells before1 ++ [dotted s] ++
      plainCells after1 ++ [separator]) (r := rest) hpass3 (by simpa using hsecond)
  refine (((((henter.trans hscan1).trans hdot).trans hscan2).trans hsep).trans hscan3).congr
    ?_ rfl (by simp)
  simp only [plainCells, List.length_map]
  omega

end Seek

/-! ## Putting a head down -/

section PutHead

variable {probe restore next : Role} {w x : Symbol} {l r : List Cell}

theorem walk_putHead (hnext : P next (l ++ dotted x :: r)) :
    Walk (putHead probe next) P 1
      ⟨probe, l, plain x :: r⟩ (.back next l (dotted x :: r)) := by
  have hput : ⟨probe, plain x, next, dotted x, .left⟩ ∈ putHead probe next :=
    List.mem_map.mpr ⟨x, mem_symbolAll x, rfl⟩
  exact Walk.left hput rfl hnext

/-- A head that would leave its tape to the left is put back. -/
theorem walk_restoreHead (hrestore : P restore (l ++ separator :: plain w :: r))
    (hnext : P next (l ++ separator :: dotted w :: r)) :
    Walk (restoreHead probe restore next w) P 2
      ⟨probe, l, separator :: plain w :: r⟩
      (.back next (l ++ [separator]) (dotted w :: r)) := by
  have hprobe : pass probe separator restore .right ∈ restoreHead probe restore next w :=
    List.mem_cons_self ..
  have hput : ⟨restore, plain w, next, dotted w, .left⟩ ∈ restoreHead probe restore next w :=
    List.mem_cons_of_mem _ (List.mem_cons_self ..)
  have hstep := Walk.right (l := l) (r := separator :: plain w :: r) hprobe rfl hrestore
  exact hstep.trans (Walk.left hput rfl (by simpa using hnext))

end PutHead

/-! ## Moving the second head -/

/-- A head that leaves the kept part of its tape to the right gets a blank, and the
separator goes one cell right. -/
theorem walk_moveSecond_grow {role : LeafRole → Role} {w : Symbol} {l r : List Cell}
    (hr : r.headD .blank = .blank)
    (hextend : P (role .extendSecond) (l ++ dotted .blank :: r))
    (hreturn : P (role .returnSecond) (l ++ dotted .blank :: separator :: r.tail)) :
    Walk (moveSecond role w .right) P 2
      ⟨role .probeSecond, l, separator :: r⟩
      (.back (role .returnSecond) (l ++ [dotted .blank]) (separator :: r.tail)) := by
  have hprobe : ⟨role .probeSecond, separator, role .extendSecond, dotted .blank, .right⟩ ∈
      moveSecond role w .right :=
    List.mem_append_right _ (List.mem_cons_self ..)
  have hput : ⟨role .extendSecond, .blank, role .returnSecond, separator, .left⟩ ∈
      moveSecond role w .right :=
    List.mem_append_right _ (List.mem_cons_of_mem _ (List.mem_cons_self ..))
  have hstep := Walk.right (l := l) (r := separator :: r) hprobe rfl hextend
  exact hstep.trans (Walk.left hput hr (by simpa using hreturn))

/-! ## Back to the first head -/

/-- From anywhere in the second region the first head is found. -/
theorem walk_seekBack {role : LeafRole → Role} {s w : Symbol} (m : Move)
    {l z r : List Cell} (after : List Symbol) (hz : ∀ c ∈ z, c ∈ Cell.inRegion)
    (hsecond : P (role .returnSecond)
      (l ++ dotted s :: (plainCells after ++ separator :: (z ++ r))))
    (hfirst : P (role .returnFirst)
      (l ++ dotted s :: (plainCells after ++ separator :: (z ++ r)))) :
    Walk (seekBack role s w m) P (z.length + 1 + after.length)
      (.back (role .returnSecond) (l ++ dotted s :: (plainCells after ++ separator :: z)) r)
      ⟨role .returnFirst, l, dotted s :: (plainCells after ++ separator :: (z ++ r))⟩ := by
  have hpass2 : ∀ c ∈ z,
      pass (role .returnSecond) c (role .returnSecond) .left ∈ seekBack role s w m := by
    intro c hc
    simpa [seekBack] using .inl ⟨c, hz c hc, rfl⟩
  have hcross : pass (role .returnSecond) separator (role .returnFirst) .left ∈
      seekBack role s w m := by
    simp [seekBack]
  have hpass1 : ∀ c ∈ plainCells after,
      pass (role .returnFirst) c (role .returnFirst) .left ∈ seekBack role s w m := by
    intro c hc
    obtain ⟨s', rfl⟩ := exists_plain_of_mem_plainCells hc
    simpa [seekBack] using .inr (.inr (.inl ⟨s', mem_symbolAll s', rfl⟩))
  have hscan2 := Walk.scanLeft (l := l ++ [dotted s] ++ plainCells after ++ [separator])
    (r := r) hpass2 (by simpa using hsecond)
  have hsep := Walk.left (l := l ++ [dotted s] ++ plainCells after)
    (r := separator :: (z ++ r)) hcross rfl (by simpa using hfirst)
  have hscan1 := Walk.scanLeft (l := l ++ [dotted s]) (r := separator :: (z ++ r)) hpass1
    (by simpa using hfirst)
  rw [Spot.back_concat] at hscan2 hscan1
  exact ((hscan2.trans hsep).trans hscan1).congr (by simp [plainCells]) (by simp) rfl

/-! ## Moving the first head -/

section MoveFirst

variable {role : LeafRole → Role} {l z r : List Cell}

theorem carryCell_mem_shiftSecond (role : LeafRole → Role) {c : Cell} (hc : c ∈ Cell.inRegion) :
    ⟨role .carrySeparator, c, role (.carryCell c), separator, .right⟩ ∈ shiftSecond role ∧
      (∀ d ∈ Cell.inRegion,
        ⟨role (.carryCell c), d, role (.carryCell d), c, .right⟩ ∈ shiftSecond role) ∧
      ⟨role (.carryCell c), separator, role .carryLast, c, .right⟩ ∈ shiftSecond role := by
  refine ⟨?_, ?_, ?_⟩
  · exact List.mem_append_left _ (List.mem_flatMap.mpr ⟨c, hc, by simp⟩)
  · intro d hd
    refine List.mem_append_left _ (List.mem_flatMap.mpr ⟨c, hc, ?_⟩)
    exact List.mem_append_left _ (List.mem_append_right _ (List.mem_map.mpr ⟨d, hd, rfl⟩))
  · exact List.mem_append_left _ (List.mem_flatMap.mpr ⟨c, hc, by simp⟩)

/-- A cell of the second region is in hand: it and all cells behind it go one cell
right. -/
theorem walk_carryCell {c : Cell} (hc : c ∈ Cell.inRegion) (hz : ∀ d ∈ z, d ∈ Cell.inRegion)
    (hr : r.headD .blank = .blank)
    (hcarry : ∀ x d y, c :: z = x ++ d :: y →
      P (role (.carryCell d)) (l ++ x ++ y ++ separator :: r))
    (hlast : P (role .carryLast) (l ++ c :: z ++ r))
    (hrewind : P (role (.rewind .second)) (l ++ c :: z ++ separator :: r.tail)) :
    Walk (shiftSecond role) P (z.length + 2)
      ⟨role (.carryCell c), l, z ++ separator :: r⟩
      (.back (role (.rewind .second)) (l ++ c :: z) (separator :: r.tail)) := by
  induction z generalizing c l with
  | nil =>
    obtain ⟨-, -, hput⟩ := carryCell_mem_shiftSecond role hc
    have hclose : ⟨role .carryLast, .blank, role (.rewind .second), separator, .left⟩ ∈
        shiftSecond role := by
      simp [shiftSecond]
    have hstep := Walk.right (l := l) (r := separator :: r) hput rfl (by simpa using hlast)
    exact hstep.trans (Walk.left hclose hr (by simpa using hrewind))
  | cons d z ih =>
    have hd : d ∈ Cell.inRegion := hz d (List.mem_cons_self ..)
    obtain ⟨-, hput, -⟩ := carryCell_mem_shiftSecond role hc
    have hstep := Walk.right (l := l) (r := d :: (z ++ separator :: r)) (hput d hd) rfl
      (by simpa using hcarry [c] d z rfl)
    have hrest := ih (l := l ++ [c]) hd (fun e he => hz e (List.mem_cons_of_mem _ he))
      (fun x e y heq => by simpa using hcarry (c :: x) e y (by rw [heq]; rfl))
      (by simpa using hlast) (by simpa using hrewind)
    exact (hstep.trans hrest).congr (by simp; omega) rfl (by simp)

/-- The separator behind the first region and all of the second region go one cell
right. -/
theorem walk_shiftSecond {c : Cell} (hz : ∀ d ∈ c :: z, d ∈ Cell.inRegion)
    (hr : r.headD .blank = .blank)
    (hcarry : ∀ x d y, c :: z = x ++ d :: y →
      P (role (.carryCell d)) (l ++ separator :: (x ++ y ++ separator :: r)))
    (hlast : P (role .carryLast) (l ++ separator :: (c :: z ++ r)))
    (hrewind : P (role (.rewind .second)) (l ++ separator :: (c :: z ++ separator :: r.tail))) :
    Walk (shiftSecond role) P ((c :: z).length + 2)
      ⟨role .carrySeparator, l, c :: z ++ separator :: r⟩
      (.back (role (.rewind .second)) (l ++ separator :: (c :: z)) (separator :: r.tail)) := by
  have hc : c ∈ Cell.inRegion := hz c (List.mem_cons_self ..)
  obtain ⟨htake, -, -⟩ := carryCell_mem_shiftSecond role hc
  have hstep := Walk.right (l := l) (r := c :: (z ++ separator :: r)) htake rfl
    (by simpa using hcarry [] c z rfl)
  have hrest := walk_carryCell (l := l ++ [separator]) hc
    (fun d hd => hz d (List.mem_cons_of_mem _ hd)) hr
    (fun x d y heq => by simpa using hcarry x d y heq)
    (by simpa using hlast) (by simpa using hrewind)
  exact (hstep.trans hrest).congr (by simp; omega) rfl (by simp)

theorem walk_moveFirst_grow {w : Symbol} {c : Cell} (hz : ∀ d ∈ c :: z, d ∈ Cell.inRegion)
    (hr : r.headD .blank = .blank)
    (hseparator : P (role .carrySeparator) (l ++ dotted .blank :: (c :: z ++ separator :: r)))
    (hcarry : ∀ x d y, c :: z = x ++ d :: y →
      P (role (.carryCell d)) (l ++ dotted .blank :: separator :: (x ++ y ++ separator :: r)))
    (hlast : P (role .carryLast) (l ++ dotted .blank :: separator :: (c :: z ++ r)))
    (hrewind : P (role (.rewind .second))
      (l ++ dotted .blank :: separator :: (c :: z ++ separator :: r.tail))) :
    Walk (moveFirst role w .right) P ((c :: z).length + 3)
      ⟨role .probeFirst, l, separator :: (c :: z ++ separator :: r)⟩
      (.back (role (.rewind .second)) (l ++ dotted .blank :: separator :: (c :: z))
        (separator :: r.tail)) := by
  have hprobe : ⟨role .probeFirst, separator, role .carrySeparator, dotted .blank, .right⟩ ∈
      moveFirst role w .right :=
    List.mem_append_right _ (List.mem_cons_self ..)
  have hsub : shiftSecond role ⊆ moveFirst role w .right :=
    fun i hi => List.mem_append_right _ (List.mem_cons_of_mem _ hi)
  have hstep := Walk.right (l := l) (r := separator :: (c :: z ++ separator :: r)) hprobe rfl
    hseparator
  have hshift := walk_shiftSecond (l := l ++ [dotted .blank]) hz hr
    (fun x d y heq => by simpa using hcarry x d y heq)
    (by simpa using hlast) (by simpa using hrewind)
  exact (hstep.trans (hshift.subset hsub)).congr (by omega) rfl (by simp)

end MoveFirst

end TapeReduction.Reduction
