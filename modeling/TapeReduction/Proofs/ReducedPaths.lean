import TapeReduction.Proofs.Layout
import TapeReduction.Proofs.Paths

/-!
# Paths of a reduced table

A reduced table has a path into the block of a state exactly if the two-tape table
has a path to that state, and to its accepting state exactly if the two-tape table
has one to its own.

In one direction a path is found by running the reduced machine: laying out a tape
leads to the first block, and one block, on tapes that hold just the key of a rule,
leads to where the rule does.  In the other direction nothing has to be run.  Every
instruction stays in its block or ends a leaf, and a leaf is there only for a rule.
-/

namespace TapeReduction.Reduction

/-- A path of the two-tape table leads to where a role of the reduced machine belongs.  The
block of the accepting state is entered only if that state is also the first one, and a
table whose only state is the accepting one never accepts. -/
def Entered (t : TwoTapeTable) : Role → Prop
  | .setup _ => True
  | .block q _ => q = 0 ∨ t.Connects 0 q ∧ q ≠ t.accepting
  | .accept => 1 < t.size ∧ t.Connects 0 t.accepting

theorem entered_slot_iff (t : TwoTapeTable) (x : Role) : Entered t x.slot ↔ Entered t x := by
  cases x with
  | setup role => exact Iff.rfl
  | block q role => exact Iff.rfl
  | accept => exact Iff.rfl

theorem connects_of_entered_block {t : TwoTapeTable} {q : Nat} {r : BlockRole}
    (h : Entered t (.block q r)) : t.Connects 0 q := by
  rcases h with rfl | ⟨hpath, -⟩
  · exact .refl
  · exact hpath

/-- The end of the leaf of a rule is entered if the block of the leaf is. -/
theorem entered_destination {t : TwoTapeTable} {q : Nat} {r : BlockRole}
    {read : Symbol × Symbol} {rule : Rule (Symbol × Symbol) (Move × Move)}
    (hrule : t.rule? q read = some rule) (h : Entered t (.block q r)) :
    Entered t (destination t rule.target) := by
  have hlead : t.Leads q rule.target := ⟨read, rule, hrule, rfl⟩
  have hpath : t.Connects 0 rule.target := (connects_of_entered_block h).tail hlead
  unfold destination
  split
  · next htarget =>
    have hlt := hlead.lt_accepting
    rw [htarget] at hpath
    unfold Draft.accepting at hlt
    exact ⟨by omega, hpath⟩
  · next hne => exact .inr ⟨hpath, hne⟩

/-- An instruction leads from a role that is entered to a role that is entered. -/
theorem entered_target {t : TwoTapeTable} {i : Instruction} (hi : i ∈ program t)
    (h : Entered t i.source) : Entered t i.target := by
  rcases mem_program_iff.mp hi with hi | ⟨q, -, hi | ⟨read, rule, hrule, hi⟩⟩
  · rcases (endpoints_of_mem_setup i hi).2 with ⟨r, hr⟩ | hr
    · rw [hr]
      trivial
    · rw [hr]
      exact .inl rfl
  · obtain ⟨⟨r, hr, -⟩, r', hr'⟩ := endpoints_of_mem_seek q i hi
    rw [hr] at h
    rw [hr']
    exact h
  · obtain ⟨hsource, htarget⟩ := endpoints_of_mem_leaf q read _ rule i hi
    have hblock : ∀ r, Entered t (.block q r) := by
      intro r
      rcases hsource with ⟨hr, -⟩ | ⟨r', hr⟩
      · rw [hr] at h
        exact h
      · rw [hr] at h
        exact h
    rcases htarget with ⟨r, hr⟩ | hr
    · rw [hr]
      exact hblock _
    · rw [hr]
      exact entered_destination hrule (hblock .enter)

namespace Reduced

variable {t : TwoTapeTable} {one : OneTapeTable}

/-- Every state on a path of the reduced table has a role that is entered. -/
theorem exists_entered (h : Reduced t one) {s : Nat} (hpath : one.Connects 0 s) :
    ∃ x : Role, x.Within t.size ∧ x.index t.size = s ∧ Entered t x := by
  induction hpath with
  | refl => exact ⟨.setup .start, trivial, rfl, trivial⟩
  | tail _ hlead ih =>
    obtain ⟨x, hwithin, hindex, hx⟩ := ih
    obtain ⟨key, rule, hrule, rfl⟩ := hlead
    obtain ⟨i, hi, hsource, -, rfl⟩ := (h.rule?_eq_some_iff _ _ _).mp hrule
    -- The role of the path and the one of the instruction may differ, but share a state.
    have hslot := Role.slot_eq_of_index_eq (source_of_mem_program hi).1 hwithin
      (hsource.trans hindex.symm)
    have hentered : Entered t i.source := by
      rwa [← entered_slot_iff, hslot, entered_slot_iff]
    exact ⟨i.target, target_within_of_mem_program hi, rfl, entered_target hi hentered⟩

/-- One block leads from the entry of a state to where a rule of the state ends. -/
theorem connects_destination (h : Reduced t one) {q : Nat} {read : Symbol × Symbol}
    {rule : Rule (Symbol × Symbol) (Move × Move)} (hrule : t.rule? q read = some rule) :
    one.Connects (entry q) ((destination t rule.target).index t.size) := by
  have hseated : TapePair.Seated ⟨([read.1], [read.2]), (0, 0)⟩ :=
    ⟨Nat.one_pos, Nat.one_pos⟩
  obtain ⟨n, -, -, -, hlast⟩ := h.exists_lap hseated hrule 0 0
  have hpath := Table.connects_iterate_step (t := one)
    (atBlock q ⟨([read.1], [read.2]), (0, 0)⟩ 0 0) n
  rw [hlast] at hpath
  exact hpath

/-- Laying out an empty input leads to the first block. -/
theorem connects_entry_zero (h : Reduced t one) : one.Connects 0 (entry 0) := by
  obtain ⟨-, hlast⟩ := h.layout (w := []) (by simp)
  have hpath := Table.connects_iterate_step (t := one) (.oneTape []) (layoutSteps 0)
  rw [List.length_nil] at hlast
  rw [hlast] at hpath
  exact hpath

/-- A path of the two-tape table to a state other than the accepting one is followed block
by block. -/
theorem connects_entry (h : Reduced t one) {q : Nat} (hpath : t.Connects 0 q)
    (hq : q = 0 ∨ q ≠ t.accepting) : one.Connects 0 (entry q) := by
  induction hpath with
  | refl => exact h.connects_entry_zero
  | @tail p q _ hlead ih =>
    rcases hq with rfl | hne
    · exact h.connects_entry_zero
    · have hentry := ih (.inr (Nat.ne_of_lt hlead.lt_accepting))
      obtain ⟨read, rule, hrule, rfl⟩ := hlead
      obtain ⟨hindex, -⟩ := h.destination_of_ne (t.closed p read rule hrule) hne
      have hblock := h.connects_destination hrule
      rw [hindex] at hblock
      exact hentry.trans hblock

theorem entry_mem_reachable_iff (h : Reduced t one) {q : Nat} (hq : q < t.size) :
    entry q ∈ one.reachable ↔ q = 0 ∨ q ∈ t.reachable ∧ q ≠ t.accepting := by
  rw [Table.mem_reachable_iff, Table.mem_reachable_iff]
  constructor
  · intro hpath
    obtain ⟨x, -, hindex, hx⟩ := h.exists_entered hpath
    obtain ⟨q', rfl⟩ : ∃ q', x = .block q' .enter := by
      by_contra hne
      exact Role.index_ne_entry hq (not_exists.mp hne) hindex
    have heq : q' = q := by
      simp only [Role.index, entry_eq, BlockRole.offset] at hindex
      omega
    rwa [heq] at hx
  · rintro (rfl | ⟨hpath, hne⟩)
    · exact h.connects_entry_zero
    · exact h.connects_entry hpath (.inr hne)

theorem accepting_mem_reachable_iff (h : Reduced t one) :
    one.accepting ∈ one.reachable ↔ 1 < t.size ∧ t.accepting ∈ t.reachable := by
  rw [Table.mem_reachable_iff, Table.mem_reachable_iff, h.accepting_eq]
  constructor
  · intro hpath
    obtain ⟨x, hwithin, hindex, hx⟩ := h.exists_entered hpath
    obtain rfl : x = .accept := by
      by_contra hne
      exact Nat.ne_of_lt (Role.index_lt_accepting hwithin hne) hindex
    exact hx
  · rintro ⟨hsize, hpath⟩
    -- With more than one state the last rule of the path leads to the accepting state.
    rcases Relation.ReflTransGen.cases_tail hpath with hzero | ⟨p, hbefore, hlead⟩
    · unfold Draft.accepting at hzero
      omega
    · have hentry := h.connects_entry hbefore (.inr (Nat.ne_of_lt hlead.lt_accepting))
      obtain ⟨read, rule, hrule, htarget⟩ := hlead
      have hblock := h.connects_destination hrule
      rw [htarget, h.destination_accepting.1] at hblock
      exact hentry.trans hblock

end Reduced

/-- The entry of the block of a state is reachable in the reduced table exactly if the state
is the first one, or is reachable in the two-tape table and not its accepting state.  The
accepting state of the reduced table is reachable exactly if that of the two-tape table is
and is not its only state. -/
theorem reduce_preserves_reachability (t : TwoTapeTable) :
    ∃ one, reduce t = .ok one ∧
      (∀ q < t.size,
        (entry q ∈ one.reachable ↔ q = 0 ∨ q ∈ t.reachable ∧ q ≠ t.accepting)) ∧
      (one.accepting ∈ one.reachable ↔ 1 < t.size ∧ t.accepting ∈ t.reachable) := by
  obtain ⟨one, hreduce, h⟩ := exists_reduce_eq_ok t
  refine ⟨one, hreduce, ?_, h.accepting_mem_reachable_iff⟩
  intro q hq
  exact h.entry_mem_reachable_iff hq

/-- The accepting state is reachable, but the block it would have is not. -/
theorem reduce_preserves_reachability_leadingOne :
    ∃ one, reduce leadingOne = .ok one ∧ entry 0 ∈ one.reachable ∧
      entry 1 ∉ one.reachable ∧ one.accepting ∈ one.reachable := by
  obtain ⟨one, hreduce, hentry, haccepting⟩ := reduce_preserves_reachability leadingOne
  have hreachable : leadingOne.accepting ∈ leadingOne.reachable :=
    Table.mem_reachable_iff.mpr (.single ⟨(.one, .blank), _, rfl, rfl⟩)
  refine ⟨one, hreduce, (hentry 0 (by decide)).mpr (.inl rfl), ?_, ?_⟩
  · rw [hentry 1 (by decide)]
    rintro (h | ⟨-, hne⟩)
    · cases h
    · exact hne rfl
  · exact haccepting.mpr ⟨by decide, hreachable⟩

end TapeReduction.Reduction
