import TapeReduction.Proofs.LineTable

/-!
# The first fault of a row

Rows are looked at one after the other, and each is done with before the next.  In a
row the count comes first, then the targets of the entries, then the number of
entries, and then keys that come again.  So rows are refused for the first row that
something is wrong with, and for the first thing wrong with that row.  A target need
not be a state for its row to pass.
-/

namespace TapeReduction.Source

open Text (wordBound Excerpt)
open Lines (number entryRule bind_eq_ok_iff bind_eq_error_iff value_eq_ok_iff)

variable {κ δ : Type}

/-- A loop fails at the first of its rounds that does. -/
theorem foldlM_eq_error_iff {ε α β : Type} {f : β → α → Except ε β} {l : List α} {b : β}
    {e : ε} :
    l.foldlM f b = .error e ↔
      ∃ before a after b', l = before ++ a :: after ∧ before.foldlM f b = .ok b' ∧
        f b' a = .error e := by
  induction l generalizing b with
  | nil => simp [pure, Except.pure]
  | cons a l ih =>
    rw [List.foldlM_cons, bind_eq_error_iff]
    constructor
    · rintro (ha | ⟨b', ha, hl⟩)
      · exact ⟨[], a, l, b, rfl, rfl, ha⟩
      · obtain ⟨before, a', after, b'', rfl, hbefore, ha'⟩ := ih.mp hl
        refine ⟨a :: before, a', after, b'', rfl, ?_, ha'⟩
        rw [List.foldlM_cons, bind_eq_ok_iff]
        exact ⟨b', ha, hbefore⟩
    · rintro ⟨before, a', after, b'', heq, hbefore, ha'⟩
      cases before with
      | nil =>
        obtain ⟨rfl, rfl⟩ := List.cons.inj heq
        obtain rfl := Except.ok.inj hbefore
        exact .inl ha'
      | cons first before =>
        obtain ⟨rfl, rfl⟩ := List.cons.inj heq
        rw [List.foldlM_cons, bind_eq_ok_iff] at hbefore
        obtain ⟨b', ha, hbefore⟩ := hbefore
        exact .inr ⟨b', ha, ih.mpr ⟨before, a', after, b'', rfl, hbefore, ha'⟩⟩

/-! ## Numbers and entries -/

theorem value_eq_error_iff {text : List Char} {issue : Issue} {n : Numeral} {fault : Fault} :
    n.value text issue = .error fault ↔
      wordBound ≤ number n ∧ fault = .unreadable (.ofSpan text n.start n.stop) issue := by
  rw [Numeral.value, Numeral.value?, Text.wordOfDigits_eq (by decide)]
  by_cases h : Nat.ofDigitChars 10 n.digits 0 < wordBound
  · simp [number, if_pos h, Nat.not_le.mpr h]
  · simp [number, if_neg h, Nat.le_of_not_lt h, eq_comm]

theorem rule_eq_error_iff {text : List Char} {entry : Entry κ δ} {fault : Fault} :
    entry.rule text = .error fault ↔
      wordBound ≤ number entry.target ∧
        fault = .unreadable (.ofSpan text entry.target.start entry.target.stop) .indexTooLarge := by
  rw [Entry.rule, bind_eq_error_iff, value_eq_error_iff]
  simp [pure, Except.pure]

/-- Entries are refused for the first target that does not fit in a machine word. -/
theorem mapM_rule_eq_error_iff {text : List Char} {entries : List (Entry κ δ)} {fault : Fault} :
    entries.mapM (Entry.rule text) = .error fault ↔
      ∃ entry, entries.find? (fun e => wordBound ≤ number e.target) = some entry ∧
        fault = .unreadable (.ofSpan text entry.target.start entry.target.stop) .indexTooLarge := by
  induction entries with
  | nil => simp [pure, Except.pure]
  | cons entry entries ih =>
    rw [List.mapM_cons, bind_eq_error_iff, rule_eq_error_iff, List.find?_cons]
    by_cases hle : wordBound ≤ number entry.target
    · have hnot : ∀ rule, ¬entry.rule text = .ok rule := by
        intro rule hrule
        obtain ⟨rfl, hlt⟩ := Lines.rule_eq_ok_iff.mp hrule
        exact Nat.not_lt.mpr hle hlt
      simp [hle, hnot]
    · have hok : entry.rule text = .ok (entryRule entry) :=
        Lines.rule_eq_ok_iff.mpr ⟨rfl, Nat.lt_of_not_le hle⟩
      simp [hle, hok, bind_eq_error_iff, ih, pure, Except.pure]

/-! ## Rows -/

/-- The count of a row and the targets of its entries fit in a machine word, and there are as
many entries as the row declares. -/
structure Row.Counts (row : Row κ δ) : Prop where
  count_lt : number row.count < wordBound
  target_lt : ∀ entry ∈ row.entries, number entry.target < wordBound
  length_eq : row.entries.length = number row.count

/-- The first thing wrong with the numbers in the row of a state. -/
inductive NumberFault (text : List Char) (state : Nat) (row : Row κ δ) : Fault → Prop
  /-- The count does not fit in a machine word. -/
  | count : wordBound ≤ number row.count →
    NumberFault text state row
      (.unreadable (.ofSpan text row.count.start row.count.stop) .countTooLarge)
  /-- The count fits, and this is the first entry with a target that does not. -/
  | target {entry : Entry κ δ} : number row.count < wordBound →
    row.entries.find? (fun e => wordBound ≤ number e.target) = some entry →
    NumberFault text state row
      (.unreadable (.ofSpan text entry.target.start entry.target.stop) .indexTooLarge)
  /-- All of them fit, and there are more or fewer entries than the row declares. -/
  | entryCount : number row.count < wordBound →
    (∀ entry ∈ row.entries, number entry.target < wordBound) →
    row.entries.length ≠ number row.count →
    NumberFault text state row (.unreadable (.ofSpan text row.count.start row.stop)
      (.entryCount state (number row.count) row.entries.length))

/-- A row that nothing is wrong with, targets that are not states apart. -/
structure Row.Passes (row : Row κ δ) : Prop extends row.Counts where
  nodup_keys : (row.entries.map Entry.key).Nodup

/-- The first thing wrong with the row of a state: something with its numbers or, if these are
right, the first entry with a key that has come before. -/
inductive RowFault [Glyphs κ] (text : List Char) (state : Nat) (row : Row κ δ) : Fault → Prop
  | numbers {fault : Fault} : NumberFault text state row fault → RowFault text state row fault
  | repeated {before after : List (Entry κ δ)} {entry : Entry κ δ} : row.Counts →
    row.entries = before ++ entry :: after → (before.map Entry.key).Nodup →
    entry.key ∈ before.map Entry.key →
    RowFault text state row (.duplicateRule state (label entry.key))

/-- The rules of a row, in the order of its entries. -/
def Row.entryRules (row : Row κ δ) : List (κ × Rule κ δ) :=
  row.entries.map entryRule

theorem counts_iff {row : Row κ δ} :
    row.Counts ↔
      Lines.rowRules row = Lines.counted row.entryRules ∧ Lines.FitsWord row.entryRules := by
  rw [Lines.rowRules, Lines.counted, Lines.FitsWord, Row.entryRules, List.length_map,
    List.forall_mem_map, Prod.mk.injEq]
  constructor
  · rintro ⟨hcount, htarget, hlength⟩
    exact ⟨⟨hlength.symm, rfl⟩, hlength ▸ hcount, htarget⟩
  · rintro ⟨⟨hcount, -⟩, hlength, htarget⟩
    exact ⟨hcount ▸ hlength, htarget, hcount.symm⟩

theorem rules_eq_ok_iff_counts {text : List Char} {state : Nat} {row : Row κ δ}
    {rules : List (κ × Rule κ δ)} :
    row.rules text state = .ok rules ↔ row.Counts ∧ rules = row.entryRules := by
  rw [Lines.rules_eq_ok_iff, counts_iff]
  constructor
  · rintro ⟨hrow, hfits⟩
    obtain rfl : row.entryRules = rules := congrArg Prod.snd hrow
    exact ⟨⟨hrow, hfits⟩, rfl⟩
  · rintro ⟨hrow, rfl⟩
    exact hrow

theorem rules_eq_error_iff {text : List Char} {state : Nat} {row : Row κ δ} {fault : Fault} :
    row.rules text state = .error fault ↔ NumberFault text state row fault := by
  have hcheck : ∀ {rules : List (κ × Rule κ δ)} {declared : Nat} {other : Fault},
      (if rules.length = declared then pure rules else throw other) = Except.error fault ↔
        rules.length ≠ declared ∧ other = fault := by
    intro rules declared other
    by_cases hlength : rules.length = declared
    · simp [hlength, pure, Except.pure]
    · simp [hlength, throw, throwThe, MonadExceptOf.throw]
  simp only [Row.rules, bind_eq_error_iff, value_eq_error_iff, value_eq_ok_iff,
    mapM_rule_eq_error_iff, Lines.mapM_rule_eq_ok_iff, hcheck]
  constructor
  · rintro (⟨hle, rfl⟩ | ⟨_, ⟨rfl, hlt⟩, ⟨entry, hfind, rfl⟩ | ⟨_, ⟨rfl, htarget⟩, hlength, rfl⟩⟩)
    · exact .count hle
    · exact .target hlt hfind
    · rw [List.length_map] at hlength ⊢
      exact .entryCount hlt (List.forall_mem_map.mp htarget) hlength
  · rintro (hle | ⟨hlt, hfind⟩ | ⟨hlt, htarget, hlength⟩)
    · exact .inl ⟨hle, rfl⟩
    · exact .inr ⟨_, ⟨rfl, hlt⟩, .inl ⟨_, hfind, rfl⟩⟩
    · refine .inr ⟨_, ⟨rfl, hlt⟩, .inr ⟨_, ⟨rfl, List.forall_mem_map.mpr htarget⟩, ?_⟩⟩
      rw [List.length_map]
      exact ⟨hlength, rfl⟩

theorem map_fst_entryRule (entries : List (Entry κ δ)) :
    (entries.map entryRule).map Prod.fst = entries.map Entry.key := by
  rw [List.map_map]
  rfl

theorem nodup_pairs_iff {state : Nat} {rules : List (κ × Rule κ δ)} :
    (rules.map fun i => (state, i.1)).Nodup ↔ (rules.map Prod.fst).Nodup := by
  have hpairs : rules.map (fun i => (state, i.1)) = (rules.map Prod.fst).map (Prod.mk state) := by
    rw [List.map_map]
    rfl
  rw [hpairs, List.nodup_map_iff fun _ _ h => (Prod.mk.inj h).2]

section Drafts

variable [DecidableEq κ] [Glyphs κ]

/-- Rules with different keys can be added to a state without rules, which then has rules for
these keys. -/
theorem exists_addRules_eq_ok {state : Nat} {d : Draft κ δ} {rules : List (κ × Rule κ δ)}
    (hlt : state < d.size) (hfree : ∀ key, d.rule? state key = none)
    (hnodup : (rules.map Prod.fst).Nodup) :
    ∃ e, addRules state d rules = .ok e ∧ e.size = d.size ∧
      ∀ key, (e.rule? state key).isSome = true ↔ key ∈ rules.map Prod.fst := by
  obtain ⟨e, hadd, hsize, hrule⟩ := Draft.exists_foldlM_add_eq_ok (fun _ => state) Prod.fst
    Prod.snd rules d (fun _ _ => hlt) (fun _ _ => hfree _) (nodup_pairs_iff.mpr hnodup)
  refine ⟨e, hadd, hsize, ?_⟩
  intro key
  rw [Option.isSome_iff_exists, List.mem_map]
  constructor
  · rintro ⟨rule, hfound⟩
    rcases (hrule state key rule).mp hfound with ⟨i, hi, -, rfl, -⟩ | hold
    · exact ⟨i, hi, rfl⟩
    · rw [hfree] at hold
      cases hold
  · rintro ⟨i, hi, rfl⟩
    exact ⟨i.2, (hrule state i.1 i.2).mpr (.inl ⟨i, hi, rfl, rfl, rfl⟩)⟩

/-- Rules for a state without any are refused for the first key that has come before. -/
theorem addRules_eq_error_iff {state : Nat} {d : Draft κ δ} {rules : List (κ × Rule κ δ)}
    {fault : Fault} (hlt : state < d.size) (hfree : ∀ key, d.rule? state key = none) :
    addRules state d rules = .error fault ↔
      ∃ before rule after, rules = before ++ rule :: after ∧ (before.map Prod.fst).Nodup ∧
        rule.1 ∈ before.map Prod.fst ∧ fault = .duplicateRule state (label rule.1) := by
  rw [addRules, foldlM_eq_error_iff]
  constructor
  · rintro ⟨before, rule, after, e, rfl, hadd, hfail⟩
    obtain ⟨-, -, hpairs⟩ := Draft.of_foldlM_add_eq_ok hadd
    have hnodup := nodup_pairs_iff.mp hpairs
    obtain ⟨e', hadd', hsize, hkeys⟩ := exists_addRules_eq_ok hlt hfree hnodup
    obtain rfl : e = e' := Except.ok.inj (hadd.symm.trans hadd')
    refine ⟨before, rule, after, rfl, hnodup, ?_⟩
    rcases e.add_cases state rule.1 rule.2 with ⟨hle, -⟩ | ⟨-, hsome, hdup⟩ | ⟨_, -, -, hok⟩
    · exact absurd hlt (Nat.not_lt.mpr (hsize ▸ hle))
    · exact ⟨(hkeys _).mp hsome, Except.error.inj (hfail.symm.trans hdup)⟩
    · cases hfail.symm.trans hok
  · rintro ⟨before, rule, after, rfl, hnodup, hmem, rfl⟩
    obtain ⟨e, hadd, hsize, hkeys⟩ := exists_addRules_eq_ok hlt hfree hnodup
    refine ⟨before, rule, after, e, rfl, hadd, ?_⟩
    rcases e.add_cases state rule.1 rule.2 with ⟨hle, -⟩ | ⟨-, -, hdup⟩ | ⟨_, -, hnone, -⟩
    · exact absurd hlt (Nat.not_lt.mpr (hsize ▸ hle))
    · exact hdup
    · have hsome := (hkeys _).mpr hmem
      rw [hnone] at hsome
      cases hsome

/-- Adding the row of a state fails for the first thing wrong with the row. -/
theorem addRow_eq_error_iff {text : List Char} {state : Nat} {d : Draft κ δ} {row : Row κ δ}
    {fault : Fault} (hlt : state < d.size) (hfree : ∀ key, d.rule? state key = none) :
    (row.rules text state >>= addRules state d) = .error fault ↔
      RowFault text state row fault := by
  rw [bind_eq_error_iff, rules_eq_error_iff]
  simp only [rules_eq_ok_iff_counts, addRules_eq_error_iff hlt hfree]
  constructor
  · rintro (hnumbers | ⟨_, ⟨hcounts, rfl⟩, _, _, _, heq, hnodup, hmem, rfl⟩)
    · exact .numbers hnumbers
    · obtain ⟨before, _, hentries, rfl, hrest⟩ := List.map_eq_append_iff.mp heq
      obtain ⟨entry, after, rfl, rfl, -⟩ := List.map_eq_cons_iff.mp hrest
      rw [map_fst_entryRule] at hnodup hmem
      exact .repeated hcounts hentries hnodup hmem
  · rintro (hnumbers | @⟨before, after, entry, hcounts, hentries, hnodup, hmem⟩)
    · exact .inl hnumbers
    · refine .inr ⟨_, ⟨hcounts, rfl⟩, before.map entryRule, entryRule entry,
        after.map entryRule, ?_, ?_, ?_, rfl⟩
      · rw [Row.entryRules, hentries, List.map_append, List.map_cons]
      · rwa [map_fst_entryRule]
      · rwa [map_fst_entryRule]

theorem addRows_cons (text : List Char) (state : Nat) (d : Draft κ δ) (row : Row κ δ)
    (rows : List (Row κ δ)) :
    addRows text state d (row :: rows) =
      (row.rules text state >>= addRules state d) >>= fun e => addRows text (state + 1) e rows := by
  rw [addRows, bind_assoc]

/-- Adding rows fails at the first of them that cannot be added. -/
theorem addRows_eq_error_iff {text : List Char} {state : Nat} {d : Draft κ δ}
    {rows : List (Row κ δ)} {fault : Fault} :
    addRows text state d rows = .error fault ↔
      ∃ before row after e, rows = before ++ row :: after ∧
        addRows text state d before = .ok e ∧
        (row.rules text (state + before.length) >>= addRules (state + before.length) e) =
          .error fault := by
  induction rows generalizing state d with
  | nil => simp [addRows]
  | cons first rows ih =>
    rw [addRows_cons, bind_eq_error_iff]
    constructor
    · rintro (hfirst | ⟨e, hfirst, hrows⟩)
      · exact ⟨[], first, rows, d, rfl, rfl, hfirst⟩
      · obtain ⟨before, row, after, e', rfl, hbefore, hrow⟩ := ih.mp hrows
        refine ⟨first :: before, row, after, e', rfl, ?_, ?_⟩
        · rw [addRows_cons]
          exact bind_eq_ok_iff.mpr ⟨e, hfirst, hbefore⟩
        · rwa [List.length_cons, Nat.add_comm _ 1, ← Nat.add_assoc]
    · rintro ⟨before, row, after, e', heq, hbefore, hrow⟩
      cases before with
      | nil =>
        obtain ⟨rfl, rfl⟩ := List.cons.inj heq
        obtain rfl := Except.ok.inj hbefore
        exact .inl hrow
      | cons _ before =>
        obtain ⟨rfl, rfl⟩ := List.cons.inj heq
        rw [addRows_cons] at hbefore
        obtain ⟨e, hfirst, hbefore⟩ := bind_eq_ok_iff.mp hbefore
        rw [List.length_cons, Nat.add_comm _ 1, ← Nat.add_assoc] at hrow
        exact .inr ⟨e, hfirst, ih.mpr ⟨before, row, after, e', rfl, hbefore, hrow⟩⟩

/-- Rows are added if their counts are right and their rules can be added. -/
theorem addRows_eq_ok_iff_counts {text : List Char} {state : Nat} {d e : Draft κ δ}
    {rows : List (Row κ δ)} :
    addRows text state d rows = .ok e ↔
      (∀ row ∈ rows, row.Counts) ∧
        Lines.addPlaced d (Lines.placed state (rows.map Row.entryRules)) = .ok e := by
  simp only [Lines.addRows_eq_ok_iff, counts_iff]
  constructor
  · rintro ⟨rules, hrules, hfits, hadd⟩
    obtain rfl : rows.map Row.entryRules = rules := by
      have hsnd := congrArg (List.map Prod.snd) hrules
      rw [List.map_map, List.map_map] at hsnd
      exact hsnd.trans (List.map_id rules)
    rw [List.map_map, List.map_inj_left] at hrules
    exact ⟨fun row hrow => ⟨hrules row hrow, hfits _ (List.mem_map_of_mem hrow)⟩, hadd⟩
  · rintro ⟨hcounts, hadd⟩
    refine ⟨rows.map Row.entryRules, ?_, ?_, hadd⟩
    · rw [List.map_map, List.map_inj_left]
      exact fun row hrow => (hcounts row hrow).1
    · rw [List.forall_mem_map]
      exact fun row hrow => (hcounts row hrow).2

/-- Rows of the first states are added if nothing is wrong with any of them. -/
theorem exists_addRows_iff (text : List Char) {states : Nat} {rows : List (Row κ δ)}
    (hlength : rows.length ≤ states) :
    (∃ d, addRows text 0 (Draft.ofSize states) rows = .ok d) ↔ ∀ row ∈ rows, row.Passes := by
  simp only [addRows_eq_ok_iff_counts]
  constructor
  · rintro ⟨d, hcounts, hadd⟩ row hrow
    obtain ⟨-, hnodup, -⟩ := Lines.of_addPlaced_eq_ok hadd
    refine ⟨hcounts row hrow, ?_⟩
    rw [← map_fst_entryRule]
    exact hnodup _ (List.mem_map_of_mem hrow)
  · intro hpasses
    have hnodup : ∀ rules ∈ rows.map Row.entryRules, (rules.map Prod.fst).Nodup := by
      rw [List.forall_mem_map]
      intro row hrow
      rw [Row.entryRules, map_fst_entryRule]
      exact (hpasses row hrow).nodup_keys
    have hlength' : (rows.map Row.entryRules).length ≤ states := by rwa [List.length_map]
    obtain ⟨d, hadd⟩ := Lines.exists_addPlaced_eq_ok hlength' hnodup
    exact ⟨d, fun row hrow => (hpasses row hrow).toCounts, hadd⟩

/-- A draft that rows were added to has their rules. -/
theorem of_addRows_eq_ok {text : List Char} {states : Nat} {rows : List (Row κ δ)}
    {d : Draft κ δ} (h : addRows text 0 (Draft.ofSize states) rows = .ok d) :
    d.size = states ∧ ∀ state key rule, d.rule? state key = some rule ↔
      ∃ row, rows[state]? = some row ∧ (key, rule) ∈ row.entryRules := by
  obtain ⟨-, hadd⟩ := addRows_eq_ok_iff_counts.mp h
  obtain ⟨hsize, -, hrule⟩ := Lines.of_addPlaced_eq_ok hadd
  refine ⟨hsize, ?_⟩
  intro state key rule
  rw [hrule, List.getElem?_map]
  simp only [Option.map_eq_some_iff, exists_exists_and_eq_and]

/-- A draft that rows were added to has no rule for the state behind them. -/
theorem rule?_of_addRows_eq_none {text : List Char} {states : Nat} {rows : List (Row κ δ)}
    {d : Draft κ δ} (h : addRows text 0 (Draft.ofSize states) rows = .ok d) (key : κ) :
    d.rule? rows.length key = none := by
  rw [Option.eq_none_iff_forall_ne_some]
  intro rule hfound
  obtain ⟨row, hrow, -⟩ := ((of_addRows_eq_ok h).2 _ key rule).mp hfound
  rw [List.getElem?_eq_none (Nat.le_refl _)] at hrow
  cases hrow

/-- Rows of the first states are refused for what is wrong with the first of them that
something is wrong with. -/
theorem addRows_ofSize_eq_error_iff {text : List Char} {states : Nat} {rows : List (Row κ δ)}
    {fault : Fault} (hlength : rows.length ≤ states) :
    addRows text 0 (Draft.ofSize states) rows = .error fault ↔
      ∃ before row after, rows = before ++ row :: after ∧ (∀ r ∈ before, r.Passes) ∧
        RowFault text before.length row fault := by
  have hbefore : ∀ {before after : List (Row κ δ)} {row : Row κ δ},
      rows = before ++ row :: after → before.length < states := by
    intro before after row hrows
    rw [hrows, List.length_append, List.length_cons] at hlength
    omega
  rw [addRows_eq_error_iff]
  simp only [Nat.zero_add]
  constructor
  · rintro ⟨before, row, after, d, hrows, hadd, hrow⟩
    have hlt := hbefore hrows
    refine ⟨before, row, after, hrows, (exists_addRows_iff text hlt.le).mp ⟨d, hadd⟩, ?_⟩
    rw [← (of_addRows_eq_ok hadd).1] at hlt
    exact (addRow_eq_error_iff hlt (rule?_of_addRows_eq_none hadd)).mp hrow
  · rintro ⟨before, row, after, hrows, hpasses, hrow⟩
    have hlt := hbefore hrows
    obtain ⟨d, hadd⟩ := (exists_addRows_iff text hlt.le).mpr hpasses
    rw [← (of_addRows_eq_ok hadd).1] at hlt
    exact ⟨before, row, after, d, hrows, hadd,
      (addRow_eq_error_iff hlt (rule?_of_addRows_eq_none hadd)).mpr hrow⟩

end Drafts

end TapeReduction.Source
