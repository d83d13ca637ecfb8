import Mathlib.Data.List.Nodup
import Mathlib.Data.List.Shortlex
import Mathlib.Data.Set.Card
import TapeReduction.Equivalence.Check

/-!
# Every short input once

The lists of inputs hold every list of input symbols of their lengths once.
Counting through the numbers with one binary digit more goes through the shorter
inputs twice, first behind a zero and then behind a one.  So there are twice as
many, those up to a length are one fewer than those of the next length alone, and
they are met in the order of their lengths and, within a length, of their symbols.
-/

namespace TapeReduction.Equivalence

/-- An input of at most a length. -/
def ShortInput (maxLength : Nat) (w : List Symbol) : Prop :=
  (∀ x ∈ w, x ∈ Symbol.inputs) ∧ w.length ≤ maxLength

/-! ## Numbers as inputs -/

theorem digitSymbol_eq (number place : Nat) :
    digitSymbol number place = if number.testBit place then .one else .zero := by
  have hbit : number.testBit place = ((number >>> place) &&& 1 != 0) := by
    rw [Nat.testBit, Nat.and_comm]
  rw [hbit]
  unfold digitSymbol
  rcases Nat.and_one_is_mod (number >>> place) ▸ Nat.mod_two_eq_zero_or_one (number >>> place)
    with hzero | hone
  · simp [hzero, Symbol.inputs]
  · simp [hone, Symbol.inputs]

/-- The highest digit comes first. -/
theorem inputOfNumber_succ (length number : Nat) :
    inputOfNumber (length + 1) number =
      digitSymbol number length :: inputOfNumber length number := by
  rw [inputOfNumber, List.range_succ_eq_map, List.map_cons, List.map_map]
  refine congrArg₂ List.cons rfl (List.map_congr_left ?_)
  intro i _
  rw [Function.comp_apply]
  congr 1
  omega

/-- Digits before the last ones do not matter. -/
theorem inputOfNumber_two_pow_add (length number : Nat) :
    inputOfNumber length (2 ^ length + number) = inputOfNumber length number := by
  refine List.map_congr_left ?_
  intro i hi
  have hlt : length - 1 - i < length := by
    have hi := List.mem_range.mp hi
    omega
  rw [digitSymbol_eq, digitSymbol_eq, Nat.testBit_two_pow_add_gt hlt]

/-- The numbers with one digit more are the shorter ones behind a zero, then behind a one. -/
theorem inputsOfLength_succ (n : Nat) :
    inputsOfLength (n + 1) =
      Symbol.inputs.flatMap fun s => (inputsOfLength n).map (s :: ·) := by
  have hzero : ∀ number < 2 ^ n,
      inputOfNumber (n + 1) number = .zero :: inputOfNumber n number := by
    intro number hlt
    rw [inputOfNumber_succ, digitSymbol_eq, Nat.testBit_lt_two_pow hlt]
    rfl
  have hone : ∀ number < 2 ^ n,
      inputOfNumber (n + 1) (2 ^ n + number) = .one :: inputOfNumber n number := by
    intro number hlt
    rw [inputOfNumber_succ, inputOfNumber_two_pow_add, digitSymbol_eq,
      Nat.testBit_two_pow_add_eq, Nat.testBit_lt_two_pow hlt]
    rfl
  simp only [Symbol.inputs, List.flatMap_cons, List.flatMap_nil, List.append_nil, inputsOfLength,
    Nat.one_shiftLeft, List.map_map]
  rw [Nat.pow_succ, Nat.mul_two, List.range_add, List.map_append, List.map_map]
  refine congrArg₂ _ ?_ ?_
  · exact List.map_congr_left fun number hmem => hzero number (List.mem_range.mp hmem)
  · exact List.map_congr_left fun number hmem => hone number (List.mem_range.mp hmem)

/-! ## Which inputs there are, and how many -/

theorem mem_inputsOfLength_iff {n : Nat} {w : List Symbol} :
    w ∈ inputsOfLength n ↔ (∀ x ∈ w, x ∈ Symbol.inputs) ∧ w.length = n := by
  induction n generalizing w with
  | zero => cases w <;> simp [inputsOfLength, inputOfNumber]
  | succ n ih =>
    simp only [inputsOfLength_succ, List.mem_flatMap, List.mem_map, ih]
    constructor
    · rintro ⟨s, hs, w, ⟨hw, rfl⟩, rfl⟩
      exact ⟨List.forall_mem_cons.mpr ⟨hs, hw⟩, rfl⟩
    · rintro ⟨hw, hlength⟩
      cases w with
      | nil => cases hlength
      | cons s w =>
        obtain ⟨hs, hw⟩ := List.forall_mem_cons.mp hw
        exact ⟨s, hs, w, ⟨hw, Nat.succ.inj hlength⟩, rfl⟩

theorem length_inputsOfLength (n : Nat) : (inputsOfLength n).length = 2 ^ n := by
  rw [inputsOfLength, List.length_map, List.length_range, Nat.one_shiftLeft]

theorem nodup_inputsOfLength (n : Nat) : (inputsOfLength n).Nodup := by
  induction n with
  | zero => exact List.nodup_singleton []
  | succ n ih =>
    rw [inputsOfLength_succ, List.nodup_flatMap]
    constructor
    · intro s _
      exact ih.map fun _ _ h => (List.cons.inj h).2
    · have hnodup : Symbol.inputs.Nodup := by decide
      refine hnodup.imp ?_
      intro s s' hne w hw hw'
      obtain ⟨_, -, rfl⟩ := List.mem_map.mp hw
      obtain ⟨_, -, heq⟩ := List.mem_map.mp hw'
      exact hne (List.cons.inj heq).1.symm

theorem mem_inputsUpTo_iff {n : Nat} {w : List Symbol} : w ∈ inputsUpTo n ↔ ShortInput n w := by
  simp only [inputsUpTo, List.mem_flatMap, List.mem_range, mem_inputsOfLength_iff, ShortInput]
  constructor
  · rintro ⟨m, hlt, hw, rfl⟩
    exact ⟨hw, Nat.le_of_lt_succ hlt⟩
  · rintro ⟨hw, hle⟩
    exact ⟨w.length, Nat.lt_succ_of_le hle, hw, rfl⟩

theorem length_inputsUpTo (n : Nat) : (inputsUpTo n).length = 2 ^ (n + 1) - 1 := by
  induction n with
  | zero => rfl
  | succ n ih =>
    have hsucc : inputsUpTo (n + 1) = inputsUpTo n ++ inputsOfLength (n + 1) := by
      rw [inputsUpTo, List.range_succ, List.flatMap_append, List.flatMap_singleton, inputsUpTo]
    have hpos : 0 < 2 ^ (n + 1) := Nat.two_pow_pos (n + 1)
    rw [hsucc, List.length_append, ih, length_inputsOfLength, Nat.pow_succ 2 (n + 1)]
    omega

theorem nodup_inputsUpTo (n : Nat) : (inputsUpTo n).Nodup := by
  refine List.nodup_flatMap.mpr ⟨fun m _ => nodup_inputsOfLength m, ?_⟩
  refine List.nodup_range.imp ?_
  intro m m' hne w hw hw'
  exact hne ((mem_inputsOfLength_iff.mp hw).2.symm.trans (mem_inputsOfLength_iff.mp hw').2)

/-- Counting along the list counts the inputs with a property. -/
theorem countP_inputsUpTo (n : Nat) (p : List Symbol → Bool) :
    (inputsUpTo n).countP p = Set.ncard {w | ShortInput n w ∧ p w = true} := by
  have hset : {w | ShortInput n w ∧ p w = true} =
      (((inputsUpTo n).filter p).toFinset : Set (List Symbol)) := by
    ext w
    simp [mem_inputsUpTo_iff]
  rw [hset, Set.ncard_coe_finset, List.toFinset_card_of_nodup ((nodup_inputsUpTo n).filter p),
    List.countP_eq_length_filter]

/-! ## Their order -/

/-- Zero is before one. -/
def ZeroBeforeOne (a b : Symbol) : Prop :=
  a = .zero ∧ b = .one

theorem pairwise_lex_inputsOfLength (n : Nat) :
    (inputsOfLength n).Pairwise (List.Lex ZeroBeforeOne) := by
  induction n with
  | zero => exact List.pairwise_singleton _ []
  | succ n ih =>
    have hbehind : ∀ s, ((inputsOfLength n).map (s :: ·)).Pairwise (List.Lex ZeroBeforeOne) := by
      intro s
      exact List.pairwise_map.mpr (ih.imp List.Lex.cons)
    rw [inputsOfLength_succ]
    refine List.pairwise_flatMap.mpr ⟨fun s _ => hbehind s, ?_⟩
    have hinputs : Symbol.inputs.Pairwise ZeroBeforeOne := by
      simp [Symbol.inputs, ZeroBeforeOne]
    refine hinputs.imp ?_
    intro s s' hbefore v hv w hw
    obtain ⟨v, -, rfl⟩ := List.mem_map.mp hv
    obtain ⟨w, -, rfl⟩ := List.mem_map.mp hw
    exact List.Lex.rel hbefore

theorem pairwise_shortlex_inputsUpTo (n : Nat) :
    (inputsUpTo n).Pairwise (List.Shortlex ZeroBeforeOne) := by
  refine List.pairwise_flatMap.mpr ⟨?_, ?_⟩
  · intro m _
    refine (pairwise_lex_inputsOfLength m).imp_of_mem ?_
    intro v w hv hw hlex
    have hlength : v.length = w.length :=
      (mem_inputsOfLength_iff.mp hv).2.trans (mem_inputsOfLength_iff.mp hw).2.symm
    exact List.Shortlex.of_lex hlength hlex
  · refine List.pairwise_lt_range.imp ?_
    intro m m' hlt v hv w hw
    apply List.Shortlex.of_length_lt
    rwa [(mem_inputsOfLength_iff.mp hv).2, (mem_inputsOfLength_iff.mp hw).2]

/-- The list of inputs up to a length holds every list of at most so many zeros and ones
exactly once, and nothing else.  Shorter ones come first, and of two with the same length the
one that has a zero where they first differ. -/
theorem inputs_listed_once_in_order (maxLength : Nat) :
    (∀ w : List Symbol, w ∈ inputsUpTo maxLength ↔ ShortInput maxLength w) ∧
      (inputsUpTo maxLength).Nodup ∧
      (inputsUpTo maxLength).Pairwise (List.Shortlex ZeroBeforeOne) ∧
      (inputsUpTo maxLength).length = 2 ^ (maxLength + 1) - 1 := by
  refine ⟨?_, ?_, ?_, ?_⟩
  · intro w
    exact mem_inputsUpTo_iff
  · exact nodup_inputsUpTo maxLength
  · exact pairwise_shortlex_inputsUpTo maxLength
  · exact length_inputsUpTo maxLength

example : (inputsUpTo 2).map (List.map Symbol.toChar) =
    [[], ['0'], ['1'], ['0', '0'], ['0', '1'], ['1', '0'], ['1', '1']] := by
  decide

end TapeReduction.Equivalence
