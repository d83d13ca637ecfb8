import TapeReduction.Proofs.DraftChecks
import TapeReduction.Proofs.NodeTables
import TapeReduction.Proofs.RowFaults

/-!
# The first fault of a text

A text can be wrong in more than one way, and one fault is reported.  The size of
the text comes first, then the grammar, then the count of states, the number of rows,
and what is wrong with the rows in their order.  Targets that are not states are
looked for last, in all rows at once.

Every fault that is reported is one of these.  The others that the parts of a reader
could report are ruled out by the grammar, or by the checks before them.
-/

namespace TapeReduction.Source

open Text (wordBound Excerpt)
open Lines (number bind_eq_error_iff value_eq_ok_iff)

variable {κ δ : Type}

/-! ## Sheets -/

section Sheets

variable [DecidableEq κ] [Alphabet κ]

/-- The pairs are the state and the target of each entry whose target is not a state, by state
and then by key. -/
def Sheet.ListsUndefined (sheet : Sheet κ δ) (pairs : List (Nat × Nat)) : Prop :=
  ∃ found : List (Nat × κ × Rule κ δ), found.Pairwise Draft.Before ∧
    (∀ state key rule, (state, key, rule) ∈ found ↔
      (∃ row, sheet.rows[state]? = some row ∧ (key, rule) ∈ row.entryRules) ∧
        number sheet.count ≤ rule.target) ∧
    pairs = found.map fun i => (i.1, i.2.2.target)

variable [Glyphs κ]

/-- The first thing wrong with a sheet. -/
inductive SheetFault (text : List Char) (sheet : Sheet κ δ) : Fault → Prop
  /-- The number of states does not fit in a machine word. -/
  | count : wordBound ≤ number sheet.count →
    SheetFault text sheet
      (.unreadable (.ofSpan text sheet.count.start sheet.count.stop) .countTooLarge)
  | noStates : number sheet.count = 0 → SheetFault text sheet (.unsound .noStates)
  /-- There is not a row for each state but the last. -/
  | rowCount : number sheet.count < wordBound → number sheet.count ≠ 0 →
    sheet.rows.length ≠ number sheet.count - 1 →
    SheetFault text sheet (.unsound (.rowCount (number sheet.count - 1) sheet.rows.length))
  /-- This is the first row that something is wrong with. -/
  | row {before after : List (Row κ δ)} {row : Row κ δ} {fault : Fault} :
    number sheet.count < wordBound → number sheet.count ≠ 0 →
    sheet.rows.length = number sheet.count - 1 →
    sheet.rows = before ++ row :: after → (∀ r ∈ before, r.Passes) →
    RowFault text before.length row fault → SheetFault text sheet fault
  /-- Nothing is wrong with the rows but targets that are not states. -/
  | undefinedTargets {pairs : List (Nat × Nat)} :
    number sheet.count < wordBound → number sheet.count ≠ 0 →
    sheet.rows.length = number sheet.count - 1 → (∀ row ∈ sheet.rows, row.Passes) →
    sheet.ListsUndefined pairs → pairs ≠ [] →
    SheetFault text sheet (.unsound (.undefinedTargets pairs))

/-- What building the draft of a sheet's rows fails for. -/
theorem build_addRows_eq_error_iff {text : List Char} {sheet : Sheet κ δ} {d : Draft κ δ}
    {fault : Fault} (hpos : number sheet.count ≠ 0)
    (hlength : sheet.rows.length = number sheet.count - 1)
    (h : addRows text 0 (Draft.ofSize (number sheet.count)) sheet.rows = .ok d) :
    d.build = .error fault ↔
      ∃ pairs, sheet.ListsUndefined pairs ∧ pairs ≠ [] ∧
        fault = .unsound (.undefinedTargets pairs) := by
  obtain ⟨hsize, hrule⟩ := of_addRows_eq_ok h
  have hlists : ∀ pairs, d.ListsUndefined pairs ↔ sheet.ListsUndefined pairs := by
    intro pairs
    simp only [Draft.ListsUndefined, Sheet.ListsUndefined, hrule, hsize]
  rw [Draft.build_eq_error_iff]
  constructor
  · rintro ⟨flaw, rfl, hflaw⟩
    cases hflaw with
    | noStates hzero => exact absurd (hsize.symm.trans hzero) hpos
    | undefinedTargets _ hpairs hne => exact ⟨_, (hlists _).mp hpairs, hne, rfl⟩
    | acceptingRules _ _ hfound =>
      rw [hsize, ← hlength, rule?_of_addRows_eq_none h] at hfound
      cases hfound
  · rintro ⟨pairs, hpairs, hne, rfl⟩
    refine ⟨_, rfl, .undefinedTargets ?_ ((hlists _).mpr hpairs) hne⟩
    rw [hsize]
    exact Nat.pos_of_ne_zero hpos

/-- The checks of a sheet in their order. -/
theorem table_eq (text : List Char) (sheet : Sheet κ δ) :
    sheet.table text =
      if wordBound ≤ number sheet.count then
        .error (.unreadable (.ofSpan text sheet.count.start sheet.count.stop) .countTooLarge)
      else if number sheet.count = 0 then .error (.unsound .noStates)
      else if sheet.rows.length ≠ number sheet.count - 1 then
        .error (.unsound (.rowCount (number sheet.count - 1) sheet.rows.length))
      else addRows text 0 (Draft.ofSize (number sheet.count)) sheet.rows >>= Draft.build := by
  rw [Sheet.table]
  by_cases hle : wordBound ≤ number sheet.count
  · rw [if_pos hle]
    exact bind_eq_error_iff.mpr (.inl (value_eq_error_iff.mpr ⟨hle, rfl⟩))
  · rw [if_neg hle, value_eq_ok_iff.mpr ⟨rfl, Nat.lt_of_not_le hle⟩]
    by_cases hzero : number sheet.count = 0
    · simp [hzero, bind, Except.bind, throw, throwThe, MonadExceptOf.throw]
    · by_cases hlength : sheet.rows.length = number sheet.count - 1
      · simp [hzero, hlength, bind, Except.bind]
      · simp [hzero, hlength, bind, Except.bind, throw, throwThe, MonadExceptOf.throw]

/-- A sheet that makes no table is refused for the first thing wrong with it. -/
theorem table_eq_error_iff {text : List Char} {sheet : Sheet κ δ} {fault : Fault} :
    sheet.table text = .error fault ↔ SheetFault text sheet fault := by
  have hrows : sheet.rows.length = number sheet.count - 1 →
      sheet.rows.length ≤ number sheet.count := by
    intro hlength
    omega
  rw [table_eq]
  constructor
  · intro h
    split at h
    · next hle =>
      obtain rfl := Except.error.inj h
      exact .count hle
    · next hle =>
      have hlt := Nat.lt_of_not_le hle
      split at h
      · next hzero =>
        obtain rfl := Except.error.inj h
        exact .noStates hzero
      · next hpos =>
        split at h
        · next hlength =>
          obtain rfl := Except.error.inj h
          exact .rowCount hlt hpos hlength
        · next hlength =>
          have hlength := not_not.mp hlength
          rcases bind_eq_error_iff.mp h with hadd | ⟨d, hadd, hbuild⟩
          · obtain ⟨before, row, after, hsplit, hpasses, hrow⟩ :=
              (addRows_ofSize_eq_error_iff (hrows hlength)).mp hadd
            exact .row hlt hpos hlength hsplit hpasses hrow
          · have hpasses := (exists_addRows_iff text (hrows hlength)).mp ⟨d, hadd⟩
            obtain ⟨pairs, hpairs, hne, rfl⟩ :=
              (build_addRows_eq_error_iff hpos hlength hadd).mp hbuild
            exact .undefinedTargets hlt hpos hlength hpasses hpairs hne
  · intro h
    cases h with
    | count hle => rw [if_pos hle]
    | noStates hzero => rw [hzero, if_neg (by decide), if_pos rfl]
    | rowCount hlt hpos hlength =>
      rw [if_neg (Nat.not_le.mpr hlt), if_neg hpos, if_pos hlength]
    | row hlt hpos hlength hsplit hpasses hrow =>
      rw [if_neg (Nat.not_le.mpr hlt), if_neg hpos, if_neg (not_not.mpr hlength),
        bind_eq_error_iff]
      exact .inl ((addRows_ofSize_eq_error_iff (hrows hlength)).mpr
        ⟨_, _, _, hsplit, hpasses, hrow⟩)
    | undefinedTargets hlt hpos hlength hpasses hpairs hne =>
      obtain ⟨d, hadd⟩ := (exists_addRows_iff text (hrows hlength)).mpr hpasses
      rw [if_neg (Nat.not_le.mpr hlt), if_neg hpos, if_neg (not_not.mpr hlength),
        bind_eq_error_iff]
      exact .inr ⟨d, hadd,
        (build_addRows_eq_error_iff hpos hlength hadd).mpr ⟨_, hpairs, hne, rfl⟩⟩

end Sheets

/-! ## Texts -/

/-- The faults of texts that match the grammar. -/
inductive OfSheet : Fault → Prop
  | countTooLarge (place : Excerpt) : OfSheet (.unreadable place .countTooLarge)
  | noStates : OfSheet (.unsound .noStates)
  | rowCount (expected found : Nat) : OfSheet (.unsound (.rowCount expected found))
  | indexTooLarge (place : Excerpt) : OfSheet (.unreadable place .indexTooLarge)
  | entryCount (place : Excerpt) (state declared listed : Nat) :
    OfSheet (.unreadable place (.entryCount state declared listed))
  | duplicateRule (state : Nat) (key : String) : OfSheet (.duplicateRule state key)
  | undefinedTargets (targets : List (Nat × Nat)) :
    OfSheet (.unsound (.undefinedTargets targets))

/-- The faults of texts.  No state, symbol or move is unknown, the accepting state has no
rules, a text that matches is not empty, no rule ends too early and no token is empty. -/
inductive OfText : Fault → Prop
  | oversize (bytes : Nat) : OfText (.unsound (.oversize bytes))
  | expected (place : Excerpt) (tokens : List Token) :
    OfText (.unreadable place (.expected tokens))
  | ofSheet {fault : Fault} : OfSheet fault → OfText fault

theorem RowFault.ofSheet [Glyphs κ] {text : List Char} {state : Nat} {row : Row κ δ}
    {fault : Fault} (h : RowFault text state row fault) : OfSheet fault := by
  cases h with
  | numbers h =>
    cases h with
    | count => exact .countTooLarge _
    | target => exact .indexTooLarge _
    | entryCount => exact .entryCount _ _ _ _
  | repeated => exact .duplicateRule _ _

section Texts

variable [DecidableEq κ] [Alphabet κ] [Glyphs κ]

theorem SheetFault.ofSheet {text : List Char} {sheet : Sheet κ δ} {fault : Fault}
    (h : SheetFault text sheet fault) : OfSheet fault := by
  cases h with
  | count => exact .countTooLarge _
  | noStates => exact .noStates
  | rowCount => exact .rowCount _ _
  | row _ _ _ _ _ hrow => exact hrow.ofSheet
  | undefinedTargets => exact .undefinedTargets _

variable [Legible κ] [Spelled κ] [Legible δ] [Spelled δ]

variable (κ δ) in
/-- The first fault of a text is reported: its size, then the grammar, then what is wrong with
the sheet that the text is a match of. -/
structure ReportsFirst (text : String) : Prop where
  ofText : ∀ {fault : Fault},
    (Table.parse text : Except Fault (Table κ δ)) = .error fault → OfText fault
  oversize_iff : ∀ {bytes : Nat},
    (Table.parse text : Except Fault (Table κ δ)) = .error (.unsound (.oversize bytes)) ↔
      maxTableBytes < text.utf8ByteSize ∧ bytes = text.utf8ByteSize
  /-- Every text matches the grammar or does not. -/
  fails_or_yields : (Peg.table κ δ).Yields (Cursor.start text.toList) none ∨
    ∃ root last, (Peg.table κ δ).Yields (Cursor.start text.toList) (some ([root], last))
  expected_iff : (∃ place tokens, (Table.parse text : Except Fault (Table κ δ)) =
      .error (.unreadable place (.expected tokens))) ↔
    text.utf8ByteSize ≤ maxTableBytes ∧
      (Peg.table κ δ).Yields (Cursor.start text.toList) none
  /-- The table of a text that matches is the one its nodes make, and the fault is the first
  one of the sheet they show. -/
  of_yields : ∀ {nodes : List Node} {last : Cursor},
    text.utf8ByteSize ≤ maxTableBytes →
    (Peg.table κ δ).Yields (Cursor.start text.toList) (some (nodes, last)) →
    (Table.parse text : Except Fault (Table κ δ)) = tableOfNodes text.toList nodes ∧
      ∃ (root : Node) (sheet : Sheet κ δ), nodes = [root] ∧ sheet.ShownBy root ∧
        ∀ fault, (Table.parse text : Except Fault (Table κ δ)) = .error fault ↔
          SheetFault text.toList sheet fault

variable [LawfulSpelled κ] [LawfulSpelled δ]

/-- What reading a text comes to, by its size and by the grammar. -/
theorem parse_cases (text : String) :
    (maxTableBytes < text.utf8ByteSize ∧
      (Table.parse text : Except Fault (Table κ δ)) =
        .error (.unsound (.oversize text.utf8ByteSize))) ∨
    text.utf8ByteSize ≤ maxTableBytes ∧
      ((Peg.table κ δ).Yields (Cursor.start text.toList) none ∧
        (∃ place tokens, (Table.parse text : Except Fault (Table κ δ)) =
          .error (.unreadable place (.expected tokens))) ∨
      ∃ (root : Node) (last : Cursor) (sheet : Sheet κ δ),
        (Peg.table κ δ).Yields (Cursor.start text.toList) (some ([root], last)) ∧
        sheet.ShownBy root ∧
        (Table.parse text : Except Fault (Table κ δ)) = sheet.table text.toList) := by
  by_cases hsize : maxTableBytes < text.utf8ByteSize
  · exact .inl ⟨hsize, by rw [Table.parse, if_pos hsize]⟩
  · have hsize := Nat.le_of_not_lt hsize
    refine .inr ⟨hsize, ?_⟩
    rcases table_fails_or_yields κ δ text.toList with hfails | ⟨root, last, hyields⟩
    · exact .inl ⟨hfails, exists_expected_of_fails hsize hfails⟩
    · obtain ⟨root, sheet, heq, hshown, hparse⟩ := exists_sheet_of_yields hsize hyields
      rw [heq] at hyields
      exact .inr ⟨root, last, sheet, hyields, hshown, hparse⟩

theorem reportsFirst (text : String) : ReportsFirst κ δ text := by
  have hcases := parse_cases (κ := κ) (δ := δ) text
  constructor
  · intro fault h
    rcases hcases with ⟨-, hparse⟩ | ⟨-, ⟨-, place, tokens, hparse⟩ | ⟨_, _, sheet, -, -, hparse⟩⟩
    · cases hparse.symm.trans h
      exact .oversize _
    · cases hparse.symm.trans h
      exact .expected _ _
    · rw [hparse, table_eq_error_iff] at h
      exact .ofSheet h.ofSheet
  · intro bytes
    constructor
    · intro h
      rcases hcases with
        ⟨hlt, hparse⟩ | ⟨-, ⟨-, place, tokens, hparse⟩ | ⟨_, _, sheet, -, -, hparse⟩⟩
      · cases hparse.symm.trans h
        exact ⟨hlt, rfl⟩
      · cases hparse.symm.trans h
      · rw [hparse, table_eq_error_iff] at h
        cases h.ofSheet
    · rintro ⟨hlt, rfl⟩
      rw [Table.parse, if_pos hlt]
  · exact table_fails_or_yields κ δ text.toList
  · constructor
    · rintro ⟨place, tokens, h⟩
      rcases hcases with ⟨-, hparse⟩ | ⟨hsize, ⟨hfails, -⟩ | ⟨_, _, sheet, -, -, hparse⟩⟩
      · cases hparse.symm.trans h
      · exact ⟨hsize, hfails⟩
      · rw [hparse, table_eq_error_iff] at h
        cases h.ofSheet
    · rintro ⟨hsize, hfails⟩
      exact exists_expected_of_fails hsize hfails
  · intro nodes last hsize hyields
    obtain ⟨root, sheet, rfl, hshown, hparse⟩ := exists_sheet_of_yields hsize hyields
    refine ⟨hparse.trans (hshown.table_eq text.toList).symm, root, sheet, rfl, hshown, ?_⟩
    intro fault
    rw [hparse, table_eq_error_iff]

end Texts

/-- Of all that is wrong with a text, the first thing in the order of the checks is reported,
for tables of one tape and of two. -/
theorem texts_report_first_fault (text : String) :
    ReportsFirst Cell Move text ∧ ReportsFirst (Symbol × Symbol) (Move × Move) text :=
  ⟨reportsFirst text, reportsFirst text⟩

-- The first row lists one entry of two, and its target is not a state; the second has a count
-- that no machine word holds.
example : (Table.parse "3\n2 0 9 0 R\n99999999999999999999\n" : Except Fault OneTapeTable) =
    .error (.unreadable ⟨2, 1, "2 0 9 0 R".toList, .columns 9⟩ (.entryCount 0 2 1)) := by
  rfl

end TapeReduction.Source
