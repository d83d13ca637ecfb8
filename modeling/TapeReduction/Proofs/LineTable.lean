import Mathlib.Data.String.Basic
import TapeReduction.Proofs.Drafting
import TapeReduction.Proofs.LineSheet

/-!
# Tables read from a text and from its lines

A sheet makes a table if each row has as many entries as it declares, every target
is a state and no row holds a key twice.  Numbers that do not fit in a machine word
are refused, but none of those could be right: there are fewer states, and fewer
entries, than the text has characters.

So the reader accepts exactly the texts of bounded size that can be read line by
line, and gives the table with the rules of the lines.
-/

namespace TapeReduction.Lines

open Text (wordBound)
open Source

variable {κ δ : Type}

/-! ## Numbers and rows -/

theorem value_eq_ok_iff {text : List Char} {issue : Issue} {n : Numeral} {value : Nat} :
    n.value text issue = .ok value ↔ number n = value ∧ value < wordBound := by
  rw [Numeral.value, Numeral.value?, Text.wordOfDigits_eq (by decide)]
  by_cases h : Nat.ofDigitChars 10 n.digits 0 < wordBound
  · rw [if_pos h]
    constructor
    · intro heq
      obtain rfl := Except.ok.inj heq
      exact ⟨rfl, h⟩
    · rintro ⟨rfl, -⟩
      rfl
  · rw [if_neg h]
    constructor
    · intro heq
      cases heq
    · rintro ⟨rfl, hlt⟩
      exact absurd hlt h

theorem rule_eq_ok_iff {text : List Char} {entry : Entry κ δ} {rule : κ × Rule κ δ} :
    entry.rule text = .ok rule ↔ entryRule entry = rule ∧ rule.2.target < wordBound := by
  simp only [Entry.rule, bind_eq_ok_iff, value_eq_ok_iff, pure, Except.pure, Except.ok.injEq]
  constructor
  · rintro ⟨target, ⟨rfl, hlt⟩, rfl⟩
    exact ⟨rfl, hlt⟩
  · rintro ⟨rfl, hlt⟩
    exact ⟨number entry.target, ⟨rfl, hlt⟩, rfl⟩

theorem mapM_rule_eq_ok_iff {text : List Char} {entries : List (Entry κ δ)}
    {rules : List (κ × Rule κ δ)} :
    entries.mapM (Entry.rule text) = .ok rules ↔
      entries.map entryRule = rules ∧ ∀ rule ∈ rules, rule.2.target < wordBound := by
  induction entries generalizing rules with
  | nil =>
    simp only [List.mapM_nil, pure, Except.pure, Except.ok.injEq, List.map_nil]
    constructor
    · rintro rfl
      exact ⟨rfl, by simp⟩
    · rintro ⟨rfl, -⟩
      rfl
  | cons entry entries ih =>
    simp only [List.mapM_cons, bind_eq_ok_iff, rule_eq_ok_iff, ih, pure, Except.pure,
      Except.ok.injEq, List.map_cons]
    constructor
    · rintro ⟨rule, ⟨rfl, hlt⟩, more, ⟨rfl, hmore⟩, rfl⟩
      exact ⟨rfl, List.forall_mem_cons.mpr ⟨hlt, hmore⟩⟩
    · rintro ⟨rfl, hall⟩
      obtain ⟨hlt, hmore⟩ := List.forall_mem_cons.mp hall
      exact ⟨_, ⟨rfl, hlt⟩, _, ⟨rfl, hmore⟩, rfl⟩

/-- A row that declares as many entries as it has. -/
def counted {ε : Type} (row : List ε) : Nat × List ε :=
  (row.length, row)

/-- Machine words hold the length of a row and its targets. -/
def FitsWord (row : List (κ × Rule κ δ)) : Prop :=
  row.length < wordBound ∧ ∀ rule ∈ row, rule.2.target < wordBound

theorem rules_eq_ok_iff {text : List Char} {state : Nat} {row : Row κ δ}
    {rules : List (κ × Rule κ δ)} :
    row.rules text state = .ok rules ↔ rowRules row = counted rules ∧ FitsWord rules := by
  simp only [Row.rules, bind_eq_ok_iff, value_eq_ok_iff, mapM_rule_eq_ok_iff]
  constructor
  · rintro ⟨declared, ⟨hcount, hlt⟩, rules', ⟨hrules, hall⟩, h⟩
    split at h
    · next hlength =>
      obtain rfl := Except.ok.inj h
      subst hlength
      exact ⟨Prod.ext hcount hrules, hlt, hall⟩
    · cases h
  · rintro ⟨hrow, hlt, hall⟩
    obtain ⟨hcount, hrules⟩ := Prod.mk.inj hrow
    refine ⟨rules.length, ⟨hcount, hlt⟩, rules, ⟨hrules, hall⟩, ?_⟩
    rw [if_pos rfl]
    rfl

/-! ## Rows in a draft -/

/-- The rules of rows with their states, which are numbered from a state on. -/
def placed (state : Nat) : List (List (κ × Rule κ δ)) → List (Nat × κ × Rule κ δ)
  | [] => []
  | row :: rest => row.map (Prod.mk state) ++ placed (state + 1) rest

theorem mem_placed_iff {state s : Nat} {rows : List (List (κ × Rule κ δ))}
    {rule : κ × Rule κ δ} :
    (s, rule) ∈ placed state rows ↔
      ∃ row, state ≤ s ∧ rows[s - state]? = some row ∧ rule ∈ row := by
  induction rows generalizing state with
  | nil => simp [placed]
  | cons first rows ih =>
    rw [placed, List.mem_append, ih, List.mem_map]
    constructor
    · rintro (⟨rule', hmem, heq⟩ | ⟨row, hle, hrow, hmem⟩)
      · obtain ⟨rfl, rfl⟩ := Prod.mk.inj heq
        exact ⟨first, Nat.le_refl _, by simp, hmem⟩
      · refine ⟨row, by omega, ?_, hmem⟩
        rw [show s - state = s - (state + 1) + 1 by omega, List.getElem?_cons_succ]
        exact hrow
    · rintro ⟨row, hle, hrow, hmem⟩
      by_cases heq : s = state
      · subst heq
        rw [Nat.sub_self, List.getElem?_cons_zero] at hrow
        obtain rfl := Option.some.inj hrow
        exact .inl ⟨rule, hmem, rfl⟩
      · rw [show s - state = s - (state + 1) + 1 by omega, List.getElem?_cons_succ] at hrow
        exact .inr ⟨row, by omega, hrow, hmem⟩

/-- No state and key occurs twice exactly if no row holds a key twice. -/
theorem nodup_placed_iff {state : Nat} {rows : List (List (κ × Rule κ δ))} :
    ((placed state rows).map fun i => (i.1, i.2.1)).Nodup ↔
      ∀ row ∈ rows, (row.map Prod.fst).Nodup := by
  induction rows generalizing state with
  | nil => simp [placed]
  | cons first rows ih =>
    have hfirst : (first.map (Prod.mk state)).map (fun i => (i.1, i.2.1)) =
        (first.map Prod.fst).map (Prod.mk state) := by
      simp
    have hinj : Function.Injective (Prod.mk state : κ → Nat × κ) := fun _ _ h =>
      (Prod.mk.inj h).2
    have hdisjoint : List.Disjoint ((first.map Prod.fst).map (Prod.mk state))
        ((placed (state + 1) rows).map fun i => (i.1, i.2.1)) := by
      intro x hx hx'
      obtain ⟨key, -, rfl⟩ := List.mem_map.mp hx
      obtain ⟨⟨s, rule⟩, hmem, heq⟩ := List.mem_map.mp hx'
      obtain ⟨row, hle, -, -⟩ := mem_placed_iff.mp hmem
      have hs : s = state := (Prod.mk.inj heq).1
      omega
    rw [placed, List.map_append, hfirst, List.nodup_append', List.nodup_map_iff hinj, ih,
      List.forall_mem_cons]
    exact ⟨fun h => ⟨h.1, h.2.1⟩, fun h => ⟨h.1, h.2, hdisjoint⟩⟩

section Drafts

variable [DecidableEq κ] [Glyphs κ]

/-- The draft with placed rules added one after the other. -/
def addPlaced (d : Draft κ δ) (rules : List (Nat × κ × Rule κ δ)) :
    Except Fault (Draft κ δ) :=
  rules.foldlM (fun d i => d.add i.1 i.2.1 i.2.2) d

theorem addRules_eq (state : Nat) (d : Draft κ δ) (rules : List (κ × Rule κ δ)) :
    addRules state d rules = addPlaced d (rules.map (Prod.mk state)) := by
  rw [addRules, addPlaced, List.foldlM_map]

/-- Rows are added if they declare as many entries as they have, and their rules are. -/
theorem addRows_eq_ok_iff {text : List Char} {state : Nat} {d e : Draft κ δ}
    {rows : List (Row κ δ)} :
    addRows text state d rows = .ok e ↔
      ∃ rules : List (List (κ × Rule κ δ)), rows.map rowRules = rules.map counted ∧
        (∀ row ∈ rules, FitsWord row) ∧ addPlaced d (placed state rules) = .ok e := by
  induction rows generalizing state d with
  | nil =>
    constructor
    · intro h
      exact ⟨[], rfl, by simp, h⟩
    · rintro ⟨rules, hrules, -, h⟩
      obtain rfl := List.map_eq_nil_iff.mp hrules.symm
      exact h
  | cons row rows ih =>
    simp only [addRows, bind_eq_ok_iff, rules_eq_ok_iff, ih, addRules_eq, List.map_cons]
    constructor
    · rintro ⟨first, ⟨hfirst, hfits⟩, d', hadd, rules, hrules, hall, hrest⟩
      refine ⟨first :: rules, ?_, List.forall_mem_cons.mpr ⟨hfits, hall⟩, ?_⟩
      · rw [hfirst, hrules, List.map_cons]
      · rw [placed, addPlaced, List.foldlM_append]
        exact bind_eq_ok_iff.mpr ⟨d', hadd, hrest⟩
    · rintro ⟨rules, hrules, hall, h⟩
      obtain ⟨first, rules, rfl, hfirst, hrest⟩ := List.map_eq_cons_iff.mp hrules.symm
      obtain ⟨hfits, hall⟩ := List.forall_mem_cons.mp hall
      rw [placed, addPlaced, List.foldlM_append] at h
      obtain ⟨d', hadd, hmore⟩ := bind_eq_ok_iff.mp h
      exact ⟨first, ⟨hfirst.symm, hfits⟩, d', hadd, rules, hrest.symm, hall, hmore⟩

/-- Rows for the first states, none of which holds a key twice, can be added to a draft
without rules. -/
theorem exists_addPlaced_eq_ok {states : Nat} {rows : List (List (κ × Rule κ δ))}
    (hlength : rows.length ≤ states) (hnodup : ∀ row ∈ rows, (row.map Prod.fst).Nodup) :
    ∃ d, addPlaced (Draft.ofSize states) (placed 0 rows) = .ok d := by
  have hlt : ∀ i ∈ placed 0 rows, i.1 < (Draft.ofSize states : Draft κ δ).size := by
    rintro ⟨state, rule⟩ hmem
    obtain ⟨row, -, hrow, -⟩ := mem_placed_iff.mp hmem
    obtain ⟨hstate, -⟩ := List.getElem?_eq_some_iff.mp hrow
    rw [Draft.size_ofSize]
    omega
  obtain ⟨d, hd, -, -⟩ := Draft.exists_foldlM_add_eq_ok (fun i => i.1) (fun i => i.2.1)
    (fun i => i.2.2) (placed 0 rows) (Draft.ofSize states) hlt
    (fun _ _ => Draft.rule?_ofSize ..) (nodup_placed_iff.mpr hnodup)
  exact ⟨d, hd⟩

/-- A draft that rows were added to has their rules, and no others. -/
theorem of_addPlaced_eq_ok {states : Nat} {rows : List (List (κ × Rule κ δ))}
    {d : Draft κ δ} (h : addPlaced (Draft.ofSize states) (placed 0 rows) = .ok d) :
    d.size = states ∧ (∀ row ∈ rows, (row.map Prod.fst).Nodup) ∧
      ∀ state key rule, d.rule? state key = some rule ↔
        ∃ row, rows[state]? = some row ∧ (key, rule) ∈ row := by
  obtain ⟨hlt, hfree, hnodup⟩ := Draft.of_foldlM_add_eq_ok h
  obtain ⟨e, he, hsize, hrule⟩ := Draft.exists_foldlM_add_eq_ok (fun i => i.1)
    (fun i => i.2.1) (fun i => i.2.2) (placed 0 rows) (Draft.ofSize states) hlt hfree hnodup
  obtain rfl : d = e := Except.ok.inj (h.symm.trans he)
  refine ⟨by rw [hsize, Draft.size_ofSize], nodup_placed_iff.mp hnodup, ?_⟩
  intro state key rule
  rw [hrule, Draft.rule?_ofSize]
  constructor
  · rintro (⟨⟨state, key, rule⟩, hmem, rfl, rfl, rfl⟩ | hnone)
    · obtain ⟨row, -, hrow, hmem⟩ := mem_placed_iff.mp hmem
      exact ⟨row, hrow, hmem⟩
    · cases hnone
  · rintro ⟨row, hrow, hmem⟩
    exact .inl ⟨(state, key, rule),
      mem_placed_iff.mpr ⟨row, Nat.zero_le _, hrow, hmem⟩, rfl, rfl, rfl⟩

end Drafts

/-! ## Tables -/

section Tables

variable [Alphabet κ]

/-- Tables with as many states and the rules of the same rows are equal. -/
theorem eq_of_holdsRows {t u : Table κ δ} {rows : List (List (κ × Rule κ δ))}
    (hsize : t.size = u.size) (ht : HoldsRows t rows) (hu : HoldsRows u rows) : t = u := by
  apply Table.ext_toDraft
  apply Draft.ext_rule? hsize
  intro state _ key
  apply Option.ext
  intro rule
  exact (ht state key rule).trans (hu state key rule).symm

/-- A draft with the rules of rows for all states but the last makes a table if no rule leads
out of it. -/
theorem exists_build_of_rows {d : Draft κ δ} {states : Nat}
    {rows : List (List (κ × Rule κ δ))} (hsize : d.size = states)
    (hrule : ∀ state key rule, d.rule? state key = some rule ↔
      ∃ row, rows[state]? = some row ∧ (key, rule) ∈ row)
    (hpos : 1 ≤ states) (hlength : rows.length = states - 1)
    (hsound : ∀ row ∈ rows, SoundRow states row) :
    ∃ t, d.build = .ok t := by
  have hclosed : d.Closed := by
    intro state key rule hfound
    obtain ⟨row, hrow, hmem⟩ := (hrule state key rule).mp hfound
    rw [hsize]
    exact (hsound row (List.mem_of_getElem? hrow)).1 (key, rule) hmem
  have hlast : ∀ key, d.rule? d.accepting key = none := by
    intro key
    rw [Option.eq_none_iff_forall_ne_some]
    intro rule hfound
    obtain ⟨row, hrow, -⟩ := (hrule _ key rule).mp hfound
    obtain ⟨hlt, -⟩ := List.getElem?_eq_some_iff.mp hrow
    rw [Draft.accepting, hsize, hlength] at hlt
    exact absurd hlt (Nat.lt_irrefl _)
  obtain ⟨t, hbuild, -⟩ := Draft.exists_build_eq_ok (hsize ▸ hpos) hclosed hlast
  exact ⟨t, hbuild⟩

variable [DecidableEq κ] [Glyphs κ]

theorem table_eq_ok_iff {text : List Char} {sheet : Sheet κ δ} {t : Table κ δ} :
    sheet.table text = .ok t ↔
      ∃ states, (number sheet.count = states ∧ states < wordBound) ∧ states ≠ 0 ∧
        sheet.rows.length = states - 1 ∧
        ∃ d, addRows text 0 (Draft.ofSize states) sheet.rows = .ok d ∧ d.build = .ok t := by
  simp only [Sheet.table, bind_eq_ok_iff, value_eq_ok_iff]
  refine exists_congr fun states => and_congr_right fun _ => ?_
  by_cases hzero : states = 0
  · simp [hzero, bind_eq_ok_iff, throw, throwThe, MonadExceptOf.throw]
  · by_cases hlength : sheet.rows.length = states - 1
    · simp [hzero, hlength, bind_eq_ok_iff]
    · simp [hzero, hlength, bind_eq_ok_iff, throw, throwThe, MonadExceptOf.throw]

/-- A table that a sheet makes has the rows of the sheet. -/
theorem exists_rows_of_table {text : List Char} {sheet : Sheet κ δ} {t : Table κ δ}
    (h : sheet.table text = .ok t) :
    ∃ rows : List (List (κ × Rule κ δ)), sheetRules sheet = (t.size, rows.map counted) ∧
      rows.length = t.size - 1 ∧ (∀ row ∈ rows, SoundRow t.size row) ∧ HoldsRows t rows := by
  obtain ⟨states, ⟨rfl, -⟩, -, hlength, d, hrows, hbuild⟩ := table_eq_ok_iff.mp h
  obtain ⟨rows, hrules, -, hadd⟩ := addRows_eq_ok_iff.mp hrows
  obtain ⟨hsize, hnodup, hrule⟩ := of_addPlaced_eq_ok hadd
  obtain rfl := Draft.toDraft_of_build_eq_ok hbuild
  refine ⟨rows, Prod.ext hsize.symm hrules, ?_, ?_, hrule⟩
  · rw [hsize, ← hlength, ← List.length_map rowRules, hrules, List.length_map]
  · intro row hrow
    refine ⟨?_, hnodup row hrow⟩
    rintro ⟨key, rule⟩ hmem
    obtain ⟨state, hstate⟩ := List.mem_iff_getElem?.mp hrow
    exact t.closed state key rule ((hrule state key rule).mpr ⟨row, hstate, hmem⟩)

/-- A sheet makes a table if its rows are right and their numbers fit. -/
theorem exists_table_eq_ok (text : List Char) {sheet : Sheet κ δ} {states : Nat}
    {rows : List (List (κ × Rule κ δ))} (hsheet : sheetRules sheet = (states, rows.map counted))
    (hpos : 1 ≤ states) (hlength : rows.length = states - 1)
    (hsound : ∀ row ∈ rows, SoundRow states row)
    (hstates : states < wordBound) (hfits : ∀ row ∈ rows, row.length < wordBound) :
    ∃ t, sheet.table text = .ok t := by
  obtain ⟨hcount, hrules⟩ := Prod.mk.inj hsheet
  have hle : rows.length ≤ states := by omega
  obtain ⟨d, hadd⟩ := exists_addPlaced_eq_ok hle fun row hrow => (hsound row hrow).2
  obtain ⟨hsize, -, hrule⟩ := of_addPlaced_eq_ok hadd
  have hfits' : ∀ row ∈ rows, FitsWord row := by
    intro row hrow
    refine ⟨hfits row hrow, ?_⟩
    intro rule hmem
    exact Nat.lt_trans ((hsound row hrow).1 rule hmem) hstates
  have hrows : addRows text 0 (Draft.ofSize states) sheet.rows = .ok d :=
    addRows_eq_ok_iff.mpr ⟨rows, hrules, hfits', hadd⟩
  obtain ⟨t, hbuild⟩ := exists_build_of_rows hsize hrule hpos hlength hsound
  have hcount' : sheet.rows.length = states - 1 := by
    rw [← hlength, ← List.length_map rowRules, hrules, List.length_map]
  exact ⟨t, table_eq_ok_iff.mpr
    ⟨states, ⟨hcount, hstates⟩, Nat.ne_of_gt hpos, hcount', d, hrows, hbuild⟩⟩

end Tables

/-! ## The lines of a table -/

section Reading

variable {item? : Reader (κ × Rule κ δ)}

section Sizes

variable (hshort : ∀ {line : List Char} {rule : κ × Rule κ δ} {rest : List Char},
  item? line = some (rule, rest) → rest.length < line.length)
include hshort

theorem rowLine?_eq_some_iff {line : List Char} {row : List (κ × Rule κ δ)} :
    rowLine? item? line = some row ↔ RowReads item? line (counted row) := by
  simp only [rowLine?, Option.bind_eq_bind, Option.bind_eq_some_iff, Prod.exists, RowReads,
    counted]
  constructor
  · rintro ⟨n, rest, hnumber, row', last, hrow, hlast⟩
    split at hlast
    · next hblank =>
      obtain rfl := Option.some.inj hlast
      obtain ⟨rfl, -⟩ := length_of_entries? hshort hrow
      exact ⟨rest, last, hnumber, hrow, hblank⟩
    · cases hlast
  · rintro ⟨rest, last, hnumber, hrow, hblank⟩
    exact ⟨row.length, rest, hnumber, row, last, hrow, if_pos hblank⟩

theorem mapM_rowLine?_eq_some_iff {ls : List (List Char)} {rows : List (List (κ × Rule κ δ))} :
    ls.mapM (rowLine? item?) = some rows ↔
      List.Forall₂ (RowReads item?) ls (rows.map counted) := by
  induction ls generalizing rows with
  | nil =>
    rw [List.mapM_nil, List.forall₂_nil_left_iff, List.map_eq_nil_iff, Option.pure_def,
      Option.some.injEq, eq_comm]
  | cons line ls ih =>
    simp only [List.mapM_cons, Option.bind_eq_bind, Option.bind_eq_some_iff, Option.pure_def,
      Option.some.injEq, rowLine?_eq_some_iff hshort, ih]
    constructor
    · rintro ⟨row, hrow, more, hmore, rfl⟩
      exact .cons hrow hmore
    · intro hall
      obtain ⟨_, _, hrow, hmore, heq⟩ := List.forall₂_cons_left_iff.mp hall
      obtain ⟨row, more, rfl, rfl, rfl⟩ := List.map_eq_cons_iff.mp heq
      exact ⟨row, hrow, more, hmore, rfl⟩

/-- A table can be read line by line if a sheet can, and what it says is right. -/
theorem tableLines?_eq_some_iff [DecidableEq κ] {text : List Char} {states : Nat}
    {rows : List (List (κ × Rule κ δ))} :
    tableLines? item? text = some (states, rows) ↔
      SheetReads item? text (states, rows.map counted) ∧ 1 ≤ states ∧
        rows.length = states - 1 ∧ ∀ row ∈ rows, SoundRow states row := by
  unfold tableLines?
  constructor
  · intro h
    split at h
    · cases h
    · next first more hlines =>
      simp only [Option.bind_eq_bind, Option.bind_eq_some_iff] at h
      obtain ⟨states', hstates, rows', hrows, h⟩ := h
      split at h
      · next hsound =>
        obtain ⟨rfl, rfl⟩ := Prod.mk.inj (Option.some.inj h)
        have hall := (mapM_rowLine?_eq_some_iff hshort).mp hrows
        exact ⟨⟨first, more, hlines, hstates, hall⟩, hsound⟩
      · cases h
  · rintro ⟨⟨first, more, hlines, hstates, hall⟩, hsound⟩
    have hrows := (mapM_rowLine?_eq_some_iff hshort).mpr hall
    rw [hlines]
    simp only [hstates, hrows, Option.bind_eq_bind, Option.bind_some]
    exact if_pos hsound

theorem length_lt_weight {ls : List (List Char)} {rows : List (List (κ × Rule κ δ))}
    (h : List.Forall₂ (RowReads item?) ls (rows.map counted)) :
    ∀ row ∈ rows, row.length < weight ls := by
  rw [List.forall₂_map_right_iff] at h
  induction h with
  | nil => simp
  | @cons line row ls rows hreads _ ih =>
    obtain ⟨rest, last, hnumber, hentries, -⟩ := hreads
    have hrest := length_lt_of_number? hnumber
    have hrow : row.length + last.length ≤ rest.length :=
      (length_of_entries? hshort hentries).2
    rw [weight_cons, List.forall_mem_cons]
    refine ⟨by omega, ?_⟩
    intro row' hmem
    have hlt := ih row' hmem
    omega

/-- A text has at least as many characters as there are rows in it, and as each of them has
entries. -/
theorem length_le_of_sheetReads {text : List Char} {states : Nat}
    {rows : List (List (κ × Rule κ δ))}
    (h : SheetReads item? text (states, rows.map counted)) :
    rows.length ≤ text.length ∧ ∀ row ∈ rows, row.length ≤ text.length := by
  obtain ⟨first, more, hlines, -, hall⟩ := h
  have hweight := weight_codeLines_le text
  rw [hlines, weight_cons] at hweight
  constructor
  · have hlength := hall.length_eq
    rw [List.length_map] at hlength
    have hmore := length_le_weight more
    omega
  · intro row hrow
    have hlt := length_lt_weight hshort hall row hrow
    omega

end Sizes

theorem length_toList_le (text : String) : text.toList.length ≤ text.utf8ByteSize := by
  have hchars : ∀ cs : List Char, cs.length ≤ String.utf8Len cs := by
    intro cs
    induction cs with
    | nil => exact Nat.le_refl 0
    | cons c cs ih =>
      have hpos := c.utf8Size_pos
      rw [List.length_cons, String.utf8Len_cons]
      omega
  calc text.toList.length
      ≤ String.utf8Len text.toList := hchars _
    _ = text.utf8ByteSize := String.utf8Len_toList text

variable [DecidableEq κ] [Alphabet κ] [Glyphs κ] [Legible κ] [Legible δ]

theorem parse_eq_ok_iff_sheet {text : String} {t : Table κ δ} :
    Table.parse text = .ok t ↔
      text.utf8ByteSize ≤ maxTableBytes ∧
        ∃ sheet, readSheet text.toList = .ok sheet ∧ sheet.table text.toList = .ok t := by
  unfold Table.parse
  by_cases hsize : maxTableBytes < text.utf8ByteSize
  · simp [hsize]
  · rw [if_neg hsize]
    cases (readSheet text.toList : Except Stuck (Sheet κ δ)) with
    | error stuck => simp
    | ok sheet => simpa using fun _ => Nat.le_of_not_lt hsize

variable (hentry : Agrees entryRule (readEntry : Cursor → Except Stuck (Entry κ δ × Cursor)) item?)
include hentry

/-- A text that can be read line by line is read. -/
theorem exists_parse_eq_ok {text : String} {states : Nat} {rows : List (List (κ × Rule κ δ))}
    (hsize : text.utf8ByteSize ≤ maxTableBytes)
    (hlines : tableLines? item? text.toList = some (states, rows)) :
    ∃ t : Table κ δ, Table.parse text = .ok t := by
  obtain ⟨hreads, hpos, hlength, hsound⟩ := (tableLines?_eq_some_iff hentry.shorter).mp hlines
  obtain ⟨hcount, hrow⟩ := length_le_of_sheetReads hentry.shorter hreads
  have hchars := length_toList_le text
  have hword : maxTableBytes + 1 < wordBound := by decide
  have hstates : states < wordBound := by omega
  have hfits : ∀ row ∈ rows, row.length < wordBound := by
    intro row hmem
    have hle := hrow row hmem
    omega
  obtain ⟨sheet, hsheet, hrules⟩ := (exists_readSheet_iff hentry _ _).mpr hreads
  obtain ⟨t, ht⟩ :=
    exists_table_eq_ok text.toList hrules hpos hlength hsound hstates hfits
  exact ⟨t, parse_eq_ok_iff_sheet.mpr ⟨hsize, sheet, hsheet, ht⟩⟩

/-- A text that is read can be read line by line, and gives the rules of the lines. -/
theorem exists_tableLines?_of_parse {text : String} {t : Table κ δ}
    (h : Table.parse text = .ok t) :
    text.utf8ByteSize ≤ maxTableBytes ∧
      ∃ rows, tableLines? item? text.toList = some (t.size, rows) ∧ HoldsRows t rows := by
  obtain ⟨hsize, sheet, hsheet, htable⟩ := parse_eq_ok_iff_sheet.mp h
  obtain ⟨rows, hrules, hlength, hsound, hholds⟩ := exists_rows_of_table htable
  refine ⟨hsize, rows, ?_, hholds⟩
  have hreads := (exists_readSheet_iff hentry _ _).mp ⟨sheet, hsheet, hrules⟩
  exact (tableLines?_eq_some_iff hentry.shorter).mpr ⟨hreads, t.size_pos, hlength, hsound⟩

/-- Reading a text and reading its lines come to the same table. -/
theorem parse_eq_ok_iff (text : String) (t : Table κ δ) :
    Table.parse text = .ok t ↔
      text.utf8ByteSize ≤ maxTableBytes ∧
        ∃ rows, tableLines? item? text.toList = some (t.size, rows) ∧ HoldsRows t rows := by
  constructor
  · exact exists_tableLines?_of_parse hentry
  · rintro ⟨hsize, rows, hlines, hholds⟩
    obtain ⟨u, hu⟩ := exists_parse_eq_ok hentry hsize hlines
    obtain ⟨-, rows', hlines', hholds'⟩ := exists_tableLines?_of_parse hentry hu
    -- The lines say how many states there are and which rules they have.
    rw [hlines] at hlines'
    obtain ⟨hstates, rfl⟩ := Prod.mk.inj (Option.some.inj hlines')
    rw [hu, eq_of_holdsRows hstates hholds hholds']

theorem exists_parse_iff (text : String) :
    (∃ t : Table κ δ, Table.parse text = .ok t) ↔
      text.utf8ByteSize ≤ maxTableBytes ∧ (tableLines? item? text.toList).isSome = true := by
  constructor
  · rintro ⟨t, ht⟩
    obtain ⟨hsize, rows, hlines, -⟩ := exists_tableLines?_of_parse hentry ht
    exact ⟨hsize, by rw [hlines]; rfl⟩
  · rintro ⟨hsize, hsome⟩
    obtain ⟨⟨states, rows⟩, hlines⟩ := Option.isSome_iff_exists.mp hsome
    exact exists_parse_eq_ok hentry hsize hlines

end Reading

/-- A text is read as a table exactly if it has at most `maxTableBytes` bytes and can be read
line by line, and the table has the states and the rules of the lines.  This holds for tables
of one tape and of two. -/
theorem parse_agrees_with_lines (text : String) :
    ((∃ t : OneTapeTable, Table.parse text = .ok t) ↔
      text.utf8ByteSize ≤ maxTableBytes ∧
        (tableLines? oneTapeRule? text.toList).isSome = true) ∧
    (∀ t : OneTapeTable, Table.parse text = .ok t ↔
      text.utf8ByteSize ≤ maxTableBytes ∧
        ∃ rows, tableLines? oneTapeRule? text.toList = some (t.size, rows) ∧
          HoldsRows t rows) ∧
    ((∃ t : TwoTapeTable, Table.parse text = .ok t) ↔
      text.utf8ByteSize ≤ maxTableBytes ∧
        (tableLines? twoTapeRule? text.toList).isSome = true) ∧
    (∀ t : TwoTapeTable, Table.parse text = .ok t ↔
      text.utf8ByteSize ≤ maxTableBytes ∧
        ∃ rows, tableLines? twoTapeRule? text.toList = some (t.size, rows) ∧
          HoldsRows t rows) := by
  refine ⟨?_, ?_, ?_, ?_⟩
  · exact exists_parse_iff agrees_oneTapeRule text
  · exact parse_eq_ok_iff agrees_oneTapeRule text
  · exact exists_parse_iff agrees_twoTapeRule text
  · exact parse_eq_ok_iff agrees_twoTapeRule text

-- A symbol takes one character, so the `01` of the row is the symbol `0` and the target 1.
example : tableLines? oneTapeRule? "02 # two states\r\n\t1 01 1R\n".toList =
    some (2, [[(.plain .zero, ⟨1, .plain .one, .right⟩)]]) := by
  decide

end TapeReduction.Lines
