import TapeReduction.Gallery
import TapeReduction.Proofs.Ending
import TapeReduction.Proofs.LineTable
import TapeReduction.Proofs.Verdict

/-!
# What bundled machines decide

A bundled text that can be read line by line is a table with the rules of its lines.
What the machine of such a table does is told phase by phase, each phase being a loop
of one state: if the machine ends in some way where a phase leaves it, it ends in this
way from anywhere in the phase.

The machine for palindromes copies its input to the second tape, brings the first head
back to the start while the second one goes to the end, and compares the two tapes, one
forwards and one backwards.  Position 0 of the second tape stays blank, so that a head
on its way back finds the start, and the first head waits at its own start meanwhile.
-/

namespace TapeReduction

namespace Lines.HoldsRows

variable {κ δ : Type} [Alphabet κ] {t : Table κ δ} {rows : List (List (κ × Rule κ δ))}
  {row : List (κ × Rule κ δ)} {state : Nat} {key : κ} {rule : Rule κ δ}

theorem rule?_of_mem (h : HoldsRows t rows) (hrow : rows[state]? = some row)
    (hmem : (key, rule) ∈ row) : t.rule? state key = some rule :=
  (h state key rule).mpr ⟨row, hrow, hmem⟩

theorem rule?_of_not_mem (h : HoldsRows t rows) (hrow : rows[state]? = some row)
    (hkey : key ∉ row.map Prod.fst) : t.rule? state key = none := by
  apply Option.eq_none_iff_forall_ne_some.mpr
  intro rule hrule
  obtain ⟨row', hrow', hmem⟩ := (h state key rule).mp hrule
  obtain rfl := Option.some.inj (hrow.symm.trans hrow')
  exact hkey (List.mem_map_of_mem hmem)

end Lines.HoldsRows

namespace Gallery

open Lines

/-! ## Bundled texts as tables -/

/-- A text that is not too long and can be read line by line is a table. -/
theorem exists_parse_of_lines {text : String} {states : Nat}
    {rows : List (List ((Symbol × Symbol) × Rule (Symbol × Symbol) (Move × Move)))}
    (hsize : text.utf8ByteSize ≤ maxTableBytes)
    (hlines : tableLines? twoTapeRule? text.toList = some (states, rows)) :
    ∃ t : TwoTapeTable, Table.parse text = .ok t ∧ t.size = states ∧ HoldsRows t rows := by
  obtain ⟨t, ht⟩ := exists_parse_eq_ok agrees_twoTapeRule hsize hlines
  obtain ⟨-, rows', hlines', hholds⟩ := exists_tableLines?_of_parse agrees_twoTapeRule ht
  rw [hlines] at hlines'
  obtain ⟨rfl, rfl⟩ := Prod.mk.inj (Option.some.inj hlines')
  exact ⟨t, ht, rfl, hholds⟩

/-- A bundled text that is a table is an exhibit. -/
theorem mem_exhibits {name text : String} {t : TwoTapeTable} (hmem : (name, text) ∈ texts)
    (hparse : Table.parse text = .ok t) : ⟨name, text, t⟩ ∈ exhibits := by
  refine List.mem_filterMap.mpr ⟨(name, text), hmem, ?_⟩
  simp only [hparse]

theorem getD_mem_inputs {w : List Symbol} (hw : ∀ x ∈ w, x ∈ Symbol.inputs) {i : Nat}
    (hi : i < w.length) : w.getD i .blank ∈ Symbol.inputs := by
  rw [← List.getElem_eq_getD (h := hi)]
  exact hw _ (List.getElem_mem hi)

/-! ## The table for palindromes -/

/-- The rules of the machine for palindromes, row by row. -/
def palindromeRows : List (List ((Symbol × Symbol) × Rule (Symbol × Symbol) (Move × Move))) :=
  let single (rule : Symbol → Rule (Symbol × Symbol) (Move × Move)) :=
    Symbol.inputs.map fun a => ((a, .blank), rule a)
  let both (target : Nat) (move : Move × Move) :=
    Symbol.inputs.flatMap fun a => Symbol.inputs.map fun b => ((a, b), ⟨target, (a, b), move⟩)
  let blanks (target : Nat) (move : Move × Move) :=
    ((.blank, .blank), ⟨target, (.blank, .blank), move⟩)
  [blanks 5 (.right, .right) :: single fun a => ⟨1, (a, .blank), (.left, .right)⟩,
    blanks 2 (.left, .left) :: single fun a => ⟨1, (a, a), (.right, .right)⟩,
    (single fun a => ⟨3, (a, .blank), (.left, .right)⟩) ++ both 2 (.left, .left),
    (single fun a => ⟨4, (a, .blank), (.left, .left)⟩) ++ both 3 (.left, .right),
    blanks 5 (.right, .right) ::
      Symbol.inputs.map fun a => ((a, a), ⟨4, (a, a), (.right, .left)⟩)]

theorem tableLines?_palindromeText :
    tableLines? twoTapeRule? palindromeText.toList = some (6, palindromeRows) := by
  -- The reading evaluates on lists of characters, not on the bytes of a text.
  unfold palindromeText
  repeat rw [String.toList_append]
  repeat rw [String.toList_ofList]
  rfl

theorem utf8ByteSize_palindromeText : palindromeText.utf8ByteSize ≤ maxTableBytes := by
  decide +kernel

/-- A table with six states and the rules for palindromes. -/
structure PalindromeTable (t : TwoTapeTable) : Prop where
  size_eq : t.size = 6
  holds : HoldsRows t palindromeRows

namespace PalindromeTable

variable {t : TwoTapeTable} {w : List Symbol} {v : Verdict}

theorem accepting_eq (h : PalindromeTable t) : t.accepting = 5 := by
  rw [Draft.accepting, h.size_eq]

theorem ne_accepting (h : PalindromeTable t) {target : Nat} (htarget : target < 5) :
    target ≠ t.accepting := by
  rw [h.accepting_eq]
  exact Nat.ne_of_lt htarget

/-- The tapes are compared as long as they agree. -/
theorem rule?_of_ne (h : PalindromeTable t) {a b : Symbol} (hne : a ≠ b) :
    t.rule? 4 (a, b) = none := by
  have hkeys : ∀ key ∈ (palindromeRows.getD 4 []).map Prod.fst, key.1 = key.2 := by decide
  refine h.holds.rule?_of_not_mem rfl ?_
  intro hmem
  exact hne (hkeys (a, b) hmem)

/-! ## Its phases -/

/-- The first head reads what is not copied yet, and the second one is right behind the
copy. -/
theorem endsWith_copy (h : PalindromeTable t) (done rest : List Symbol)
    (hw : ∀ x ∈ done ++ rest, x ∈ Symbol.inputs)
    (hcopied : t.EndsWith 2 (onLists (done ++ rest) ((done ++ rest).length - 1)
      (.blank :: (done ++ rest)) (done ++ rest).length) v) :
    t.EndsWith 1 (onLists (done ++ rest) done.length (.blank :: done) (done.length + 1)) v := by
  induction rest generalizing done with
  | nil =>
    have hrule : t.rule? 1 (.blank, .blank) = some ⟨2, (.blank, .blank), (.left, .left)⟩ :=
      h.holds.rule?_of_mem rfl (.head _)
    rw [List.append_nil] at hcopied ⊢
    exact TwoTapeTable.endsWith_of_pass (by simp) (by simp) hrule (h.ne_accepting (by decide))
      hcopied
  | cons a rest ih =>
    have hrule : t.rule? 1 (a, .blank) = some ⟨1, (a, a), (.right, .right)⟩ :=
      h.holds.rule?_of_mem rfl (.tail _ (List.mem_map.mpr ⟨a, hw a (by simp), rfl⟩))
    refine TwoTapeTable.endsWith_of_extend (by simp) hrule (h.ne_accepting (by decide)) ?_
    rw [List.append_cons] at hw hcopied ⊢
    have hmore := ih (done ++ [a]) hw hcopied
    rwa [List.length_append] at hmore

/-- Both heads go back from the same symbol, until the second one is in front of the copy. -/
theorem endsWith_back (h : PalindromeTable t) (hw : ∀ x ∈ w, x ∈ Symbol.inputs) {i : Nat}
    (hi : i < w.length) (hback : t.EndsWith 3 (onLists w 0 (.blank :: w) 1) v) :
    t.EndsWith 2 (onLists w i (.blank :: w) (i + 1)) v := by
  have hpass : ∀ i < w.length, t.EndsWith 2 (onLists w (i - 1) (.blank :: w) i) v →
      t.EndsWith 2 (onLists w i (.blank :: w) (i + 1)) v := by
    intro i hi hnext
    have ha := getD_mem_inputs hw hi
    have hrule : t.rule? 2 (w.getD i .blank, w.getD i .blank) =
        some ⟨2, (w.getD i .blank, w.getD i .blank), (.left, .left)⟩ :=
      h.holds.rule?_of_mem rfl (List.mem_append_right _
        (List.mem_flatMap.mpr ⟨_, ha, List.mem_map.mpr ⟨_, ha, rfl⟩⟩))
    exact TwoTapeTable.endsWith_of_pass rfl rfl hrule (h.ne_accepting (by decide)) hnext
  induction i with
  | zero =>
    have hrule : t.rule? 2 (w.getD 0 .blank, .blank) =
        some ⟨3, (w.getD 0 .blank, .blank), (.left, .right)⟩ :=
      h.holds.rule?_of_mem rfl
        (List.mem_append_left _ (List.mem_map.mpr ⟨_, getD_mem_inputs hw hi, rfl⟩))
    -- The first head cannot go further, so it stays while the second one reads the blank.
    apply hpass 0 hi
    exact TwoTapeTable.endsWith_of_pass rfl rfl hrule (h.ne_accepting (by decide)) hback
  | succ i ih =>
    apply hpass (i + 1) hi
    exact ih (Nat.lt_of_succ_lt hi)

/-- The second head goes to the end of the copy, and the first one stays at its start. -/
theorem endsWith_forth (h : PalindromeTable t) (hw : ∀ x ∈ w, x ∈ Symbol.inputs)
    (hpos : 0 < w.length) {j k : Nat} (hlength : j + k = w.length)
    (hforth : t.EndsWith 4 (onLists w 0 (.blank :: w) w.length) v) :
    t.EndsWith 3 (onLists w 0 (.blank :: w) (j + 1)) v := by
  have ha := getD_mem_inputs hw hpos
  induction k generalizing j with
  | zero =>
    have hend : (Symbol.blank :: w).getD (j + 1) .blank = .blank := by
      simp [show j = w.length from hlength]
    have hrule : t.rule? 3 (w.getD 0 .blank, .blank) =
        some ⟨4, (w.getD 0 .blank, .blank), (.left, .left)⟩ :=
      h.holds.rule?_of_mem rfl (List.mem_append_left _ (List.mem_map.mpr ⟨_, ha, rfl⟩))
    refine TwoTapeTable.endsWith_of_pass rfl hend hrule (h.ne_accepting (by decide)) ?_
    rwa [← show j = w.length from hlength] at hforth
  | succ k ih =>
    have hb := getD_mem_inputs hw (i := j) (by omega)
    have hrule : t.rule? 3 (w.getD 0 .blank, w.getD j .blank) =
        some ⟨3, (w.getD 0 .blank, w.getD j .blank), (.left, .right)⟩ :=
      h.holds.rule?_of_mem rfl (List.mem_append_right _
        (List.mem_flatMap.mpr ⟨_, ha, List.mem_map.mpr ⟨_, hb, rfl⟩⟩))
    refine TwoTapeTable.endsWith_of_pass rfl rfl hrule (h.ne_accepting (by decide)) ?_
    exact ih (by omega)

/-- What is left of the input is compared with the symbols of the copy up to the second
head. -/
theorem endsWith_compare (h : PalindromeTable t) (hw : ∀ x ∈ w, x ∈ Symbol.inputs)
    {i k : Nat} (hlength : i + k = w.length) :
    t.EndsWith 4 (onLists w i (.blank :: w) k)
      (if w.drop i = (w.take k).reverse then .accept t.accepting else .reject) := by
  induction k generalizing i with
  | zero =>
    have hend : w.getD i .blank = .blank := by
      simp [show i = w.length from hlength]
    have hrule : t.rule? 4 (.blank, .blank) = some ⟨5, (.blank, .blank), (.right, .right)⟩ :=
      h.holds.rule?_of_mem rfl (.head _)
    rw [if_pos (by simp [show i = w.length from hlength])]
    exact TwoTapeTable.endsWith_of_accept hend rfl hrule h.accepting_eq.symm
  | succ k ih =>
    have hi : i < w.length := by omega
    have hk : k < w.length := by omega
    have hsides : w.drop i = (w.take (k + 1)).reverse ↔
        w.getD i .blank = w.getD k .blank ∧ w.drop (i + 1) = (w.take k).reverse := by
      rw [List.drop_eq_getElem_cons hi, List.take_succ_eq_append_getElem hk, List.reverse_concat,
        List.cons.injEq, List.getElem_eq_getD .blank, List.getElem_eq_getD .blank]
    by_cases hsame : w.getD i .blank = w.getD k .blank
    · have hrule : t.rule? 4 (w.getD i .blank, w.getD i .blank) =
          some ⟨4, (w.getD i .blank, w.getD i .blank), (.right, .left)⟩ :=
        h.holds.rule?_of_mem rfl
          (.tail _ (List.mem_map.mpr ⟨_, getD_mem_inputs hw hi, rfl⟩))
      simp only [hsides, hsame, true_and]
      refine TwoTapeTable.endsWith_of_pass rfl hsame.symm hrule (h.ne_accepting (by decide)) ?_
      exact ih (i := i + 1) (by omega)
    · rw [if_neg fun heq => hsame (hsides.mp heq).1]
      exact TwoTapeTable.endsWith_of_no_rule rfl rfl (h.rule?_of_ne hsame)

theorem endsWith_start (h : PalindromeTable t) (hw : ∀ x ∈ w, x ∈ Symbol.inputs) :
    t.EndsWith 0 (onLists w 0 [] 0)
      (if w = w.reverse then .accept t.accepting else .reject) := by
  cases w with
  | nil =>
    have hrule : t.rule? 0 (.blank, .blank) = some ⟨5, (.blank, .blank), (.right, .right)⟩ :=
      h.holds.rule?_of_mem rfl (.head _)
    exact TwoTapeTable.endsWith_of_accept rfl rfl hrule h.accepting_eq.symm
  | cons a rest =>
    have hrule : t.rule? 0 (a, .blank) = some ⟨1, (a, .blank), (.left, .right)⟩ :=
      h.holds.rule?_of_mem rfl (.tail _ (List.mem_map.mpr ⟨a, hw a (by simp), rfl⟩))
    refine TwoTapeTable.endsWith_of_extend (y := []) rfl hrule (h.ne_accepting (by decide)) ?_
    refine h.endsWith_copy [] (a :: rest) hw ?_
    refine h.endsWith_back hw (Nat.lt_succ_self _) ?_
    refine h.endsWith_forth hw (Nat.succ_pos _) (Nat.zero_add _) ?_
    have hcompare := h.endsWith_compare hw (Nat.zero_add _)
    rwa [List.drop_zero, List.take_length] at hcompare

end PalindromeTable

/-- The bundled machine for palindromes halts on every input and accepts those that read the
same backwards, and so does the machine it is reduced to. -/
theorem palindrome_machine_decides :
    ∃ (t : TwoTapeTable) (one : OneTapeTable),
      Table.parse palindromeText = .ok t ∧ ⟨"palindrome", palindromeText, t⟩ ∈ exhibits ∧
      reduce t = .ok one ∧
      ∀ w : List Symbol, (∀ x ∈ w, x ∈ Symbol.inputs) →
        t.HaltsWith (.twoTapes w []) (if w = w.reverse then .accept 5 else .reject) ∧
        one.HaltsWith (.oneTape w)
          (if w = w.reverse then .accept one.accepting else .reject) := by
  obtain ⟨t, hparse, hsize, hholds⟩ :=
    exists_parse_of_lines utf8ByteSize_palindromeText tableLines?_palindromeText
  obtain ⟨one, hreduce, hreduced⟩ := Reduction.exists_reduce_eq_ok t
  have htable : PalindromeTable t := ⟨hsize, hholds⟩
  refine ⟨t, one, hparse, mem_exhibits (by simp [texts]) hparse, hreduce, ?_⟩
  intro w hw
  have htwo := TwoTapeTable.haltsWith_of_endsWith (htable.endsWith_start hw)
  rw [hreduced.accepting_eq, ← htable.accepting_eq]
  refine ⟨htwo, ?_⟩
  by_cases hpalindrome : w = w.reverse
  · rw [if_pos hpalindrome] at htwo ⊢
    exact (hreduced.haltsWith_iff hw (.inl rfl)).mpr htwo
  · rw [if_neg hpalindrome] at htwo ⊢
    exact (hreduced.haltsWith_iff hw (.inr rfl)).mpr htwo

theorem palindrome_machine_decides_samples :
    ∃ (t : TwoTapeTable) (one : OneTapeTable),
      Table.parse palindromeText = .ok t ∧ reduce t = .ok one ∧
      t.HaltsWith (.twoTapes [.one, .zero, .one] []) (.accept 5) ∧
      one.HaltsWith (.oneTape [.one, .zero, .one]) (.accept one.accepting) ∧
      t.HaltsWith (.twoTapes [.one, .zero, .zero] []) .reject ∧
      one.HaltsWith (.oneTape [.one, .zero, .zero]) .reject := by
  obtain ⟨t, one, hparse, -, hreduce, h⟩ := palindrome_machine_decides
  obtain ⟨htwo, hone⟩ := h [.one, .zero, .one] (by decide)
  obtain ⟨htwo', hone'⟩ := h [.one, .zero, .zero] (by decide)
  exact ⟨t, one, hparse, hreduce, htwo, hone, htwo', hone'⟩

end Gallery

end TapeReduction
