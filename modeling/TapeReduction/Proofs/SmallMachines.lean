import TapeReduction.Proofs.Exhibits
import TapeReduction.Proofs.Midstream

/-!
# What the smaller bundled machines compute

The machine that copies goes over its input once and writes it on the second tape; its
run is followed with the tapes as they are kept, because its result is what is on them.
The machine for even numbers of ones goes over its input, too, and its state is the
parity of the ones it has read.  The machine for a leading one looks at one symbol.

The machine reduced from one of these ends as it does, and where the tapes are the
result, the tape of the reduced machine shows them.
-/

namespace TapeReduction

namespace Gallery

open Lines Reduction

/-! ## Bundled machines and their reductions -/

/-- The bundled machine with a name and a text, and the machine reduced from it. -/
structure Bundled (name text : String) (t : TwoTapeTable) (one : OneTapeTable) : Prop where
  parse_eq : Table.parse text = .ok t
  mem_exhibits : ⟨name, text, t⟩ ∈ exhibits
  reduce_eq : reduce t = .ok one

/-- A table with so many states and the rules of rows. -/
structure RowTable (t : TwoTapeTable) (states : Nat)
    (rows : List (List ((Symbol × Symbol) × Rule (Symbol × Symbol) (Move × Move)))) : Prop where
  size_eq : t.size = states
  holds : HoldsRows t rows

/-- On every input the two-tape machine and the one-tape machine halt, and they accept
exactly the inputs with a property. -/
def BothDecide (t : TwoTapeTable) (one : OneTapeTable) (accepted : List Symbol → Prop)
    [DecidablePred accepted] : Prop :=
  ∀ w : List Symbol, (∀ x ∈ w, x ∈ Symbol.inputs) →
    t.HaltsWith (.twoTapes w []) (if accepted w then .accept t.accepting else .reject) ∧
    one.HaltsWith (.oneTape w) (if accepted w then .accept one.accepting else .reject)

section Tables

variable {t : TwoTapeTable} {one : OneTapeTable} {states : Nat}
  {rows : List (List ((Symbol × Symbol) × Rule (Symbol × Symbol) (Move × Move)))}

theorem RowTable.accepting_eq (h : RowTable t states rows) : t.accepting = states - 1 := by
  rw [Draft.accepting, h.size_eq]

/-- A bundled text that can be read line by line is a table that can be reduced. -/
theorem exists_bundled (name : String) {text : String} (hmem : (name, text) ∈ texts)
    (hsize : text.utf8ByteSize ≤ maxTableBytes)
    (hlines : tableLines? twoTapeRule? text.toList = some (states, rows)) :
    ∃ t one, Bundled name text t one ∧ RowTable t states rows ∧ Reduced t one := by
  obtain ⟨t, hparse, hstates, hholds⟩ := exists_parse_of_lines hsize hlines
  obtain ⟨one, hreduce, hreduced⟩ := exists_reduce_eq_ok t
  exact ⟨t, one, ⟨hparse, mem_exhibits hmem hparse, hreduce⟩, ⟨hstates, hholds⟩, hreduced⟩

theorem haltsWith_accepting (h : Reduced t one) {w : List Symbol}
    (hw : ∀ x ∈ w, x ∈ Symbol.inputs) (htwo : t.HaltsWith (.twoTapes w []) (.accept t.accepting)) :
    one.HaltsWith (.oneTape w) (.accept one.accepting) := by
  rw [h.accepting_eq]
  exact (h.haltsWith_iff hw (.inl rfl)).mpr htwo

theorem bothDecide_of_endsWith (h : Reduced t one) {accepted : List Symbol → Prop}
    [DecidablePred accepted]
    (hends : ∀ w : List Symbol, (∀ x ∈ w, x ∈ Symbol.inputs) →
      t.EndsWith 0 (onLists w 0 [] 0) (if accepted w then .accept t.accepting else .reject)) :
    BothDecide t one accepted := by
  intro w hw
  have htwo := TwoTapeTable.haltsWith_of_endsWith (hends w hw)
  refine ⟨htwo, ?_⟩
  by_cases haccepted : accepted w
  · rw [if_pos haccepted] at htwo ⊢
    exact haltsWith_accepting h hw htwo
  · rw [if_neg haccepted] at htwo ⊢
    exact (h.haltsWith_iff hw (.inr rfl)).mpr htwo

end Tables

/-! ## Copying -/

/-- The rules of the machine that copies. -/
def copyRows : List (List ((Symbol × Symbol) × Rule (Symbol × Symbol) (Move × Move))) :=
  [((.blank, .blank), ⟨1, (.blank, .blank), (.left, .left)⟩) ::
    Symbol.inputs.map fun a => ((a, .blank), ⟨0, (a, a), (.right, .right)⟩)]

theorem tableLines?_copyText :
    tableLines? twoTapeRule? copyText.toList = some (2, copyRows) := by
  unfold copyText
  repeat rw [String.toList_append]
  repeat rw [String.toList_ofList]
  rfl

/-- The tapes when `done` has been copied and `rest` has not. -/
def copying (done rest : List Symbol) : TwoTapes :=
  (.behind done rest, .behind done [])

/-- The tapes when all of `w` has been copied and the machine has halted. -/
def copied (w : List Symbol) : TwoTapes :=
  let tape : Tape Symbol.blank := ⟨(w ++ [Symbol.blank]).toArray, w.length - 1⟩
  (tape, tape)

section Copy

variable {t : TwoTapeTable} (h : RowTable t 2 copyRows)

include h

theorem step_copying (done : List Symbol) {a : Symbol} (ha : a ∈ Symbol.inputs)
    (rest : List Symbol) (steps : Nat) :
    t.step ⟨0, copying done (a :: rest), steps, none⟩ =
      ⟨0, copying (done ++ [a]) rest, steps + 1, none⟩ := by
  have hscan : Tapes.scan (Tapes.settle (copying done (a :: rest))) = (a, .blank) :=
    congrArg₂ Prod.mk (Tape.scan_settle_behind done (a :: rest)) (Tape.scan_settle_behind done [])
  have hrule : t.rule? 0 (Tapes.scan (Tapes.settle (copying done (a :: rest)))) =
      some ⟨0, (a, a), (.right, .right)⟩ := by
    rw [hscan]
    exact h.holds.rule?_of_mem rfl (.tail _ (List.mem_map.mpr ⟨a, ha, rfl⟩))
  have hact : Tapes.act (a, a) (.right, .right) (Tapes.settle (copying done (a :: rest))) =
      copying (done ++ [a]) rest := by
    simp only [Tapes.act, Tapes.settle, copying, Tape.write_settle_behind]
    simp [Tape.shift, Tape.behind]
  rw [t.step_of_rule?_eq_some rfl hrule, hact, Table.verdictAt, h.accepting_eq]
  rfl

theorem step_copied (w : List Symbol) (steps : Nat) :
    t.step ⟨0, copying w [], steps, none⟩ = ⟨1, copied w, steps + 1, some (.accept 1)⟩ := by
  have hscan : Tapes.scan (Tapes.settle (copying w [])) = (.blank, .blank) :=
    congrArg₂ Prod.mk (Tape.scan_settle_behind w []) (Tape.scan_settle_behind w [])
  have hrule : t.rule? 0 (Tapes.scan (Tapes.settle (copying w []))) =
      some ⟨1, (.blank, .blank), (.left, .left)⟩ := by
    rw [hscan]
    exact h.holds.rule?_of_mem rfl (.head _)
  have hact : Tapes.act (.blank, .blank) (.left, .left) (Tapes.settle (copying w [])) =
      copied w := by
    simp only [Tapes.act, Tapes.settle, copying, Tape.write_settle_behind]
    rfl
  rw [t.step_of_rule?_eq_some rfl hrule, hact, Table.verdictAt, h.accepting_eq]
  rfl

theorem iterate_step_copying (done rest : List Symbol) (hrest : ∀ x ∈ rest, x ∈ Symbol.inputs)
    (steps : Nat) :
    t.step^[rest.length + 1] ⟨0, copying done rest, steps, none⟩ =
      ⟨1, copied (done ++ rest), steps + (rest.length + 1), some (.accept 1)⟩ := by
  induction rest generalizing done steps with
  | nil => rw [List.append_nil, List.length_nil, Function.iterate_one, step_copied h]
  | cons a rest ih =>
    obtain ⟨ha, hrest⟩ := List.forall_mem_cons.mp hrest
    rw [List.length_cons, Function.iterate_succ_apply, step_copying h done ha, ih _ hrest,
      List.append_assoc, List.singleton_append, Nat.add_assoc, Nat.add_comm 1]

end Copy

/-- The tapes are kept up to their heads. -/
theorem keptPair_copied (w : List Symbol) :
    keptPair (copied w) =
      ⟨(w ++ [.blank], w ++ [.blank]), (w.length - 1, w.length - 1)⟩ := by
  have hlt : w.length - 1 < w.length + 1 := by
    omega
  simp [keptPair, copied, Tape.settle, hlt]

/-! ## Even numbers of ones -/

/-- The rules of the machine for even numbers of ones. -/
def evenOnesRows : List (List ((Symbol × Symbol) × Rule (Symbol × Symbol) (Move × Move))) :=
  [[((.blank, .blank), ⟨2, (.blank, .blank), (.left, .left)⟩),
      ((.zero, .blank), ⟨0, (.zero, .blank), (.right, .right)⟩),
      ((.one, .blank), ⟨1, (.one, .blank), (.right, .right)⟩)],
    [((.zero, .blank), ⟨1, (.zero, .blank), (.right, .right)⟩),
      ((.one, .blank), ⟨0, (.one, .blank), (.right, .right)⟩)]]

theorem tableLines?_evenOnesText :
    tableLines? twoTapeRule? evenOnesText.toList = some (3, evenOnesRows) := by
  unfold evenOnesText
  repeat rw [String.toList_append]
  repeat rw [String.toList_ofList]
  rfl

section EvenOnes

variable {t : TwoTapeTable} (h : RowTable t 3 evenOnesRows)

include h

/-- A one changes the parity, a zero does not. -/
theorem rule?_parity (ones : Nat) {a : Symbol} (ha : a ∈ Symbol.inputs) :
    t.rule? (ones % 2) (a, .blank) =
      some ⟨(ones + [a].count .one) % 2, (a, .blank), (.right, .right)⟩ := by
  have hrows : ∀ parity < 2, ∀ a ∈ Symbol.inputs, ∃ row ∈ evenOnesRows[parity]?,
      ((a, .blank), ⟨(parity + [a].count .one) % 2, (a, .blank), (.right, .right)⟩) ∈ row := by
    decide
  obtain ⟨row, hrow, hmem⟩ := hrows (ones % 2) (Nat.mod_lt ones Nat.two_pos) a ha
  rw [Nat.mod_add_mod] at hmem
  exact h.holds.rule?_of_mem hrow hmem

/-- The state is the parity of the ones read so far. -/
theorem endsWith_parity (done rest : List Symbol) (hrest : ∀ x ∈ rest, x ∈ Symbol.inputs) :
    t.EndsWith (done.count .one % 2) (onLists (done ++ rest) done.length [] done.length)
      (if (done ++ rest).count .one % 2 = 0 then .accept t.accepting else .reject) := by
  induction rest generalizing done with
  | nil =>
    rw [List.append_nil]
    have hend : done.getD done.length .blank = .blank := by
      simp
    rcases Nat.mod_two_eq_zero_or_one (done.count .one) with heven | hodd
    · have hrule : t.rule? 0 (.blank, .blank) = some ⟨2, (.blank, .blank), (.left, .left)⟩ :=
        h.holds.rule?_of_mem rfl (.head _)
      rw [heven, if_pos rfl]
      exact TwoTapeTable.endsWith_of_accept hend rfl hrule h.accepting_eq.symm
    · have hrule : t.rule? 1 (.blank, .blank) = none :=
        h.holds.rule?_of_not_mem rfl (by decide)
      rw [hodd, if_neg Nat.one_ne_zero]
      exact TwoTapeTable.endsWith_of_no_rule hend rfl hrule
  | cons a rest ih =>
    obtain ⟨ha, hrest⟩ := List.forall_mem_cons.mp hrest
    have hread : (done ++ a :: rest).getD done.length .blank = a := by
      simp
    have hne : (done.count .one + [a].count .one) % 2 ≠ t.accepting := by
      rw [h.accepting_eq]
      omega
    refine TwoTapeTable.endsWith_of_pass hread rfl (rule?_parity h _ ha) hne ?_
    have hnext := ih (done ++ [a]) hrest
    rwa [List.append_assoc, List.singleton_append, List.length_append, List.count_append] at hnext

end EvenOnes

/-! ## A leading one -/

/-- The rule of the machine for a leading one. -/
def leadingOneRows : List (List ((Symbol × Symbol) × Rule (Symbol × Symbol) (Move × Move))) :=
  [[((.one, .blank), ⟨1, (.one, .one), (.right, .right)⟩)]]

theorem tableLines?_leadingOneText :
    tableLines? twoTapeRule? leadingOneText.toList = some (2, leadingOneRows) := by
  unfold leadingOneText
  repeat rw [String.toList_append]
  repeat rw [String.toList_ofList]
  rfl

theorem endsWith_leadingOne {t : TwoTapeTable} (h : RowTable t 2 leadingOneRows)
    (w : List Symbol) :
    t.EndsWith 0 (onLists w 0 [] 0)
      (if w.head? = some .one then .accept t.accepting else .reject) := by
  have hkeys : ∀ key ∈ (leadingOneRows.getD 0 []).map Prod.fst, key.1 = .one := by
    decide
  have hnone : ∀ a, a ≠ .one → t.rule? 0 (a, .blank) = none := by
    intro a ha
    refine h.holds.rule?_of_not_mem rfl ?_
    intro hmem
    exact ha (hkeys _ hmem)
  cases w with
  | nil => exact TwoTapeTable.endsWith_of_no_rule rfl rfl (hnone .blank (by decide))
  | cons a rest =>
    by_cases ha : a = .one
    · have hrule : t.rule? 0 (a, .blank) = some ⟨1, (.one, .one), (.right, .right)⟩ := by
        rw [ha]
        exact h.holds.rule?_of_mem rfl (.head _)
      rw [if_pos (by rw [ha, List.head?_cons])]
      exact TwoTapeTable.endsWith_of_accept rfl rfl hrule h.accepting_eq.symm
    · rw [if_neg (by simpa using ha)]
      exact TwoTapeTable.endsWith_of_no_rule rfl rfl (hnone a ha)

/-! ## All of them -/

/-- On every input the bundled machine that copies accepts and leaves the input and one blank
on both tapes; the one for even numbers of ones and the one for a leading one halt and accept
the inputs they are for.  The reduced machines end in the same way, and the last tape of the
one that copies shows the input and one blank twice. -/
theorem bundled_machines_compute :
    (∃ t one, Bundled "copy" copyText t one ∧
      ∀ w : List Symbol, (∀ x ∈ w, x ∈ Symbol.inputs) →
        (∃ n, (t.step^[n] (.twoTapes w [])).halted = some (.accept t.accepting) ∧
          (t.step^[n] (.twoTapes w [])).tapes.1.cells.toList = w ++ [.blank] ∧
          (t.step^[n] (.twoTapes w [])).tapes.2.cells.toList = w ++ [.blank]) ∧
        ∃ m heads, (one.step^[m] (.oneTape w)).halted = some (.accept one.accepting) ∧
          decode (one.step^[m] (.oneTape w)).tapes.cells.toList =
            .ok ⟨(w ++ [.blank], w ++ [.blank]), heads⟩) ∧
    (∃ t one, Bundled "even-ones" evenOnesText t one ∧
      BothDecide t one fun w => w.count .one % 2 = 0) ∧
    ∃ t one, Bundled "leading-one" leadingOneText t one ∧
      BothDecide t one fun w => w.head? = some .one := by
  refine ⟨?_, ?_, ?_⟩
  · obtain ⟨t, one, hbundled, htable, hreduced⟩ :=
      exists_bundled "copy" (by simp [texts]) (by decide +kernel) tableLines?_copyText
    refine ⟨t, one, hbundled, ?_⟩
    intro w hw
    have hrun : t.step^[w.length + 1] (.twoTapes w []) =
        ⟨1, copied w, 0 + (w.length + 1), some (.accept 1)⟩ :=
      iterate_step_copying htable [] w hw 0
    have hhalted : (t.step^[w.length + 1] (.twoTapes w [])).halted =
        some (.accept t.accepting) := by
      rw [hrun, htable.accepting_eq]
    obtain ⟨m, hm⟩ := haltsWith_accepting hreduced hw ⟨w.length + 1, hhalted⟩
    have hdecode := hreduced.decode_of_halted (hreduced.starts_layout hw) rfl
      (Option.isSome_of_eq_some hhalted) (Option.isSome_of_eq_some hm)
    rw [hrun, keptPair_copied] at hdecode
    refine ⟨⟨w.length + 1, hhalted, ?_, ?_⟩, m, _, hm, hdecode⟩
    · rw [hrun, copied]
    · rw [hrun, copied]
  · obtain ⟨t, one, hbundled, htable, hreduced⟩ :=
      exists_bundled "even-ones" (by simp [texts]) (by decide +kernel)
        tableLines?_evenOnesText
    refine ⟨t, one, hbundled, bothDecide_of_endsWith hreduced ?_⟩
    intro w hw
    exact endsWith_parity htable [] w hw
  · obtain ⟨t, one, hbundled, htable, hreduced⟩ :=
      exists_bundled "leading-one" (by simp [texts]) (by decide +kernel)
        tableLines?_leadingOneText
    refine ⟨t, one, hbundled, bothDecide_of_endsWith hreduced ?_⟩
    intro w _
    exact endsWith_leadingOne htable w

theorem bundled_machines_compute_samples :
    (∃ t one, Bundled "copy" copyText t one ∧
      ∃ n, (t.step^[n] (.twoTapes [.one, .zero] [])).tapes.2.cells.toList =
        [.one, .zero, .blank]) ∧
    (∃ t one, Bundled "even-ones" evenOnesText t one ∧
      one.HaltsWith (.oneTape [.one, .zero, .one]) (.accept one.accepting) ∧
      t.HaltsWith (.twoTapes [.zero, .one] []) .reject) ∧
    ∃ t one, Bundled "leading-one" leadingOneText t one ∧
      t.HaltsWith (.twoTapes [.one, .zero] []) (.accept t.accepting) ∧
      one.HaltsWith (.oneTape []) .reject := by
  obtain ⟨⟨t, one, hcopy, h⟩, ⟨t', one', heven, h'⟩, t'', one'', hleading, h''⟩ :=
    bundled_machines_compute
  obtain ⟨⟨n, -, -, hsecond⟩, -⟩ := h [.one, .zero] (by decide)
  exact ⟨⟨t, one, hcopy, n, hsecond⟩,
    ⟨t', one', heven, (h' [.one, .zero, .one] (by decide)).2, (h' [.zero, .one] (by decide)).1⟩,
    t'', one'', hleading, (h'' [.one, .zero] (by decide)).1, (h'' [] (by decide)).2⟩

end Gallery

end TapeReduction
