import TapeReduction.Proofs.GrammarTokens
import TapeReduction.Proofs.LineSheet

/-!
# Reading follows the grammar

A text reads as a sheet exactly if it matches the grammar, and then the nodes of the
match show the sheet: its numbers where they stand, the values of its tokens, its
entries and its rows in order.

A reader of entries that is stuck inside an entry has no counterpart in the grammar,
which ends the row before that entry.  But the line goes on there, so neither a line
break nor the end of the text can follow, and the grammar fails after all.
-/

namespace TapeReduction.Source

/-! ## Rounds of the grammar -/

section Rounds

open Peg (seq star blanks)

variable {κ δ : Type} [Spelled κ] [Spelled δ]

/-- A count and rounds of entries behind it are a row. -/
theorem exists_row {c next past : Cursor} {count : Numeral} {nodes : List Node}
    (hcount : readNumeral .count c = .ok (count, next))
    (hrounds : (star (seq blanks (.entry κ δ))).Yields next (some (nodes, past))) :
    ∃ node last, (Peg.row κ δ).Yields c (some ([node], last)) ∧ last.skip = past.skip ∧
      ∀ entries : List (Entry κ δ), List.Forall₂ Entry.ShownBy entries nodes →
        (Row.ofEntries count entries past).ShownBy node := by
  obtain ⟨_, hnumeral, countNode, rfl, hshown⟩ := (follows_numeral .count).yields hcount
  have hstart : c.offset = count.start := by
    obtain ⟨_, _, -, -, rfl, -⟩ := readNumeral_eq_ok_iff.mp hcount
    rfl
  rcases hrounds.many with ⟨rfl, rfl, hmany⟩ | ⟨_, _, rest, hfirst, rfl, hmany⟩
  · refine ⟨_, _, .rule_ok (hnumeral.followedBy hmany), past.skip_skip, ?_⟩
    intro entries hall
    obtain rfl := List.forall₂_nil_right_iff.mp hall
    exact ⟨rfl, hstart, rfl, countNode, [], rfl, hshown, .nil⟩
  · refine ⟨_, _, .rule_ok (hnumeral.followedBy hmany), rfl, ?_⟩
    intro entries hall
    refine ⟨rfl, hstart, ?_, countNode, _, rfl, hshown, hall⟩
    cases hfirst with
    | rule_ok _ =>
      obtain ⟨entry, more, -, -, rfl⟩ := List.forall₂_cons_right_iff.mp hall
      rfl

variable (κ δ) in
/-- One round of the rows of a table: line breaks and a row. -/
abbrev rowRound : Peg :=
  Peg.newlines.followedBy (.row κ δ)

/-- Behind the end of a line, a count and rounds of entries are a round of rows. -/
theorem exists_rowRound {c next past : Cursor} {count : Numeral} {nodes : List Node}
    (hbreak : c.skip.AtBreak) (hcount : readNumeral .count c.skipLines = .ok (count, next))
    (hrounds : (star (seq blanks (.entry κ δ))).Yields next (some (nodes, past))) :
    ∃ node last, (seq blanks (rowRound κ δ)).Yields c (some ([node], last)) ∧
      last.skip = past.skip ∧
      ∀ entries : List (Entry κ δ), List.Forall₂ Entry.ShownBy entries nodes →
        (Row.ofEntries count entries past).ShownBy node := by
  obtain ⟨behind, hnewlines, hskip⟩ := Peg.exists_newlines hbreak
  rw [← hskip] at hcount
  obtain ⟨node, last, hrow, hlast, hshown⟩ := exists_row hcount hrounds
  exact ⟨node, last, Peg.yields_behind_blanks_iff.mpr (hnewlines.followedBy hrow), hlast, hshown⟩

/-- Where no line ends, the rounds of rows do. -/
theorem rowRounds_stop_of_not_atBreak {c : Cursor} (h : ¬c.skip.AtBreak) :
    (star (seq blanks (rowRound κ δ))).Yields c (some ([], c)) :=
  .star_stop (Peg.yields_behind_blanks_iff.mpr (.seq_fail_left (Peg.newlines_fails h)))

/-- Where no count follows, the rounds of rows end. -/
theorem rowRounds_stop_of_stuck {c : Cursor} {stuck : Stuck}
    (h : readNumeral .count c.skipLines = .error stuck) :
    (star (seq blanks (rowRound κ δ))).Yields c (some ([], c)) := by
  by_cases hbreak : c.skip.AtBreak
  · obtain ⟨behind, hnewlines, hskip⟩ := Peg.exists_newlines hbreak
    rw [← hskip] at h
    have hrow : (Peg.row κ δ).Yields behind.skip none :=
      .rule_fail (.seq_fail_left ((follows_numeral .count).fails h))
    exact .star_stop (Peg.yields_behind_blanks_iff.mpr (hnewlines.followedBy_fails hrow))
  · exact rowRounds_stop_of_not_atBreak hbreak

/-- What reading rows has come to goes with rounds of rows that end at a place: the nodes show
the rows that were read and the text ends there, or reading is stuck and the text goes on
there. -/
def GoesWith (done : List (Row κ δ)) (nodes : List Node) (last : Cursor) :
    Except Stuck (List (Row κ δ)) → Prop
  | .ok all => last.skipLines.rest = [] ∧
    ∃ new, all = done.reverse ++ new ∧ List.Forall₂ Row.ShownBy new nodes
  | .error _ => last.skipLines.rest ≠ []

theorem goesWith_done {done : List (Row κ δ)} {last : Cursor} (h : last.skipLines.rest = []) :
    GoesWith done [] last (.ok done.reverse) :=
  ⟨h, [], (List.append_nil _).symm, .nil⟩

theorem goesWith_of_inLine {done : List (Row κ δ)} {nodes : List Node} {last : Cursor}
    (h : last.skip.InLine) (stuck : Stuck) : GoesWith done nodes last (.error stuck) := by
  rw [GoesWith, Cursor.skipLines_eq_skip h.not_atBreak]
  exact h.rest_ne_nil

theorem GoesWith.cons {done : List (Row κ δ)} {row : Row κ δ} {node : Node} {nodes : List Node}
    {last : Cursor} {result : Except Stuck (List (Row κ δ))}
    (h : GoesWith (row :: done) nodes last result) (hrow : row.ShownBy node) :
    GoesWith done (node :: nodes) last result := by
  cases result with
  | error stuck => exact h
  | ok all =>
    obtain ⟨hend, new, rfl, hnew⟩ := h
    exact ⟨hend, row :: new, by simp, .cons hrow hnew⟩

end Rounds

/-! ## Reading and rounds -/

section Reading

open Peg (seq star blanks)

variable {κ δ : Type} [Legible κ] [Spelled κ] [LawfulSpelled κ]
  [Legible δ] [Spelled δ] [LawfulSpelled δ]

theorem follows_entry :
    Follows (readEntry : Cursor → Except Stuck (Entry κ δ × Cursor)) (.entry κ δ)
      (OneNode Entry.ShownBy) := by
  have hfields := (LawfulSpelled.follows (α := κ)).both ((follows_numeral .index).both
    ((LawfulSpelled.follows (α := κ)).both (LawfulSpelled.follows (α := δ))))
  rw [show (readEntry : Cursor → Except Stuck (Entry κ δ × Cursor)) = _ from
    funext Lines.readEntry_eq]
  refine hfields.rule .entry _ ?_
  rintro ⟨key, target, write, move⟩ node hkind
    ⟨keyNodes, _, hchildren, hkey, _, _, rfl, ⟨targetNode, rfl, htarget⟩,
      writeNodes, moveNodes, rfl, hwrite, hmove⟩
  exact ⟨hkind, keyNodes, targetNode, writeNodes, moveNodes, hchildren, hkey, htarget, hwrite,
    hmove⟩

/-- Entries that are read are rounds of the grammar. -/
theorem exists_rounds_of_readEntries {fuel : Nat} {c past : Cursor}
    {done all : List (Entry κ δ)} {tokens : List Token}
    (h : readEntries c done fuel = .ok (all, past, tokens)) (hfuel : c.rest.length < fuel) :
    ∃ new nodes, all = done.reverse ++ new ∧
      (star (seq blanks (.entry κ δ))).Yields c (some (nodes, past)) ∧
      List.Forall₂ Entry.ShownBy new nodes ∧ past.rest.length ≤ c.rest.length := by
  induction fuel generalizing c done with
  | zero => exact absurd hfuel (Nat.not_lt_zero _)
  | succ fuel ih =>
    rw [readEntries] at h
    cases hread : (readEntry c.skip : Except Stuck (Entry κ δ × Cursor)) with
    | ok result =>
      obtain ⟨entry, next⟩ := result
      rw [hread] at h
      obtain ⟨_, hnode, node, rfl, hshown⟩ := follows_entry.yields hread
      have hlt := follows_entry.shorter hread
      have hle := c.length_skip_le
      obtain ⟨new, nodes, rfl, hnodes, hall, hpast⟩ := ih h (by omega)
      refine ⟨entry :: new, node :: nodes, by simp, ?_, .cons hshown hall, by omega⟩
      exact .star_more (Peg.yields_behind_blanks_iff.mpr hnode) hnodes
    | error stuck =>
      rw [hread] at h
      dsimp only at h
      split at h
      · simp only [Except.ok.injEq, Prod.mk.injEq] at h
        obtain ⟨rfl, rfl, -⟩ := h
        refine ⟨[], [], by simp, .star_stop ?_, .nil, Nat.le_refl _⟩
        exact Peg.yields_behind_blanks_iff.mpr (follows_entry.fails hread)
      · cases h

/-- If reading is stuck inside an entry, the rounds of the grammar end before it, where the
line goes on. -/
theorem exists_rounds_of_stuck {fuel : Nat} {c : Cursor} {done : List (Entry κ δ)}
    {stuck : Stuck} (h : readEntries c done fuel = .error stuck) :
    ∃ nodes last, (star (seq blanks (.entry κ δ))).Yields c (some (nodes, last)) ∧
      last.skip.InLine := by
  induction fuel generalizing c done with
  | zero => cases h
  | succ fuel ih =>
    rw [readEntries] at h
    cases hread : (readEntry c.skip : Except Stuck (Entry κ δ × Cursor)) with
    | ok result =>
      obtain ⟨entry, next⟩ := result
      rw [hread] at h
      obtain ⟨nodes, hnodes, -⟩ := follows_entry.yields hread
      obtain ⟨more, last, hmore, hline⟩ := ih h
      exact ⟨nodes ++ more, last,
        .star_more (Peg.yields_behind_blanks_iff.mpr hnodes) hmore, hline⟩
    | error stuck' =>
      rw [hread] at h
      dsimp only at h
      split at h
      · cases h
      · next hoffset =>
        refine ⟨[], c, .star_stop ?_, follows_entry.inLine_of_stuck hread hoffset⟩
        exact Peg.yields_behind_blanks_iff.mpr (follows_entry.fails hread)

/-- Reading rows goes with rounds of the grammar.  These may start before blanks that reading
has already passed, or behind some that it has not. -/
theorem exists_rounds_goesWith {fuel : Nat} {c c' : Cursor} (tokens : List Token)
    (done : List (Row κ δ)) (hskip : c'.skip = c.skip) (hfuel : c.rest.length < fuel) :
    ∃ nodes last, (star (seq blanks (rowRound κ δ))).Yields c' (some (nodes, last)) ∧
      GoesWith done nodes last (readRows c tokens done fuel) := by
  induction fuel generalizing c c' tokens done with
  | zero => exact absurd hfuel (Nat.not_lt_zero _)
  | succ fuel ih =>
    have hlines : c.skipLines = c'.skipLines := by
      rw [← Cursor.skipLines_skip, ← hskip, Cursor.skipLines_skip]
    rw [readRows, Cursor.skipLines_skip, hlines, ← hskip]
    rcases c'.skip.rest_eq_nil_or with hnil | hbreak | hline
    · -- The text has ended.
      have hnot := Cursor.not_atBreak_of_rest_eq_nil hnil
      refine ⟨[], c', rowRounds_stop_of_not_atBreak hnot, ?_⟩
      rw [hnil]
      exact goesWith_done (by rw [Cursor.skipLines_eq_skip hnot, hnil])
    · obtain ⟨x, rest, hrest, hx⟩ := id hbreak
      rw [hrest]
      simp only [hx, if_true]
      cases hcount : readNumeral .count c'.skipLines with
      | error stuck =>
        refine ⟨[], c', rowRounds_stop_of_stuck hcount, ?_⟩
        dsimp only
        split
        · next hempty => exact goesWith_done (List.isEmpty_iff.mp hempty)
        · next hempty => exact fun hnil => hempty (List.isEmpty_iff.mpr hnil)
      | ok result =>
        obtain ⟨count, next⟩ := result
        dsimp only
        cases hentries : (readEntries next [] fuel :
            Except Stuck (List (Entry κ δ) × Cursor × List Token)) with
        | error stuck =>
          -- The row ends before the entry that reading is stuck in, and no other row follows.
          obtain ⟨nodes, past, hrounds, hline⟩ := exists_rounds_of_stuck hentries
          obtain ⟨node, last, hround, hlast, -⟩ := exists_rowRound hbreak hcount hrounds
          rw [← hlast] at hline
          exact ⟨_, last, .star_more hround (rowRounds_stop_of_not_atBreak hline.not_atBreak),
            goesWith_of_inLine hline stuck⟩
        | ok result =>
          obtain ⟨entries, past, tokens⟩ := result
          have hlt := (follows_numeral .count).shorter hcount
          have hle := c.length_skipLines_le
          rw [hlines] at hle
          obtain ⟨_, nodes, rfl, hrounds, hall, hpast⟩ :=
            exists_rounds_of_readEntries hentries (by omega)
          obtain ⟨node, last, hround, hlast, hshown⟩ := exists_rowRound hbreak hcount hrounds
          obtain ⟨more, last', hmore, hgoes⟩ :=
            ih tokens (Row.ofEntries count _ past :: done) hlast (by omega)
          exact ⟨_, last', .star_more hround hmore, hgoes.cons (hshown _ hall)⟩
    · -- The line goes on with something that starts no entry.
      obtain ⟨x, rest, hrest, hx⟩ := id hline
      refine ⟨[], c', rowRounds_stop_of_not_atBreak hline.not_atBreak, ?_⟩
      rw [hrest]
      simp only [hx, Bool.false_eq_true, if_false]
      exact goesWith_of_inLine hline _

end Reading

/-! ## Sheets -/

section Sheets

open Peg (seq star blanks many)

variable {κ δ : Type} [Spelled κ] [Spelled δ]

variable (κ δ) in
/-- What stands behind the count of a table: rows, line breaks and the end of the text. -/
abbrev behindCount : Peg :=
  (many (rowRound κ δ)).followedBy ((many .newline).followedBy .endOfInput)

theorem exists_behindCount {c last : Cursor} {nodes : List Node}
    (hrounds : (star (seq blanks (rowRound κ δ))).Yields c (some (nodes, last)))
    (hend : last.skipLines.rest = []) :
    ∃ node last', (behindCount κ δ).Yields c.skip (some (nodes ++ [node], last')) ∧
      node.kind = .token .endOfInput := by
  obtain ⟨past, hmany, hskip⟩ := hrounds.exists_many
  obtain ⟨behind, hbreaks, hlines⟩ := Peg.exists_many_newline past
  rw [← Cursor.skipLines_skip, hskip, Cursor.skipLines_skip] at hlines
  obtain ⟨node, hnode, hkind⟩ := Peg.yields_endOfInput (c := behind.skip) (by rw [hlines, hend])
  exact ⟨node, behind.skip, hmany.followedBy (hbreaks.followedBy hnode), hkind⟩

theorem behindCount_fails {c last : Cursor} {nodes : List Node}
    (hrounds : (star (seq blanks (rowRound κ δ))).Yields c (some (nodes, last)))
    (hend : last.skipLines.rest ≠ []) : (behindCount κ δ).Yields c.skip none := by
  obtain ⟨past, hmany, hskip⟩ := hrounds.exists_many
  obtain ⟨behind, hbreaks, hlines⟩ := Peg.exists_many_newline past
  rw [← Cursor.skipLines_skip, hskip, Cursor.skipLines_skip] at hlines
  rw [← hlines] at hend
  exact hmany.followedBy_fails (hbreaks.followedBy_fails (Peg.endOfInput_fails hend))

/-- A table starts with line breaks and its count. -/
theorem exists_table {text : List Char} {count : Numeral} {next last : Cursor}
    {nodes : List Node}
    (hcount : readNumeral .count (Cursor.start text).skipLines = .ok (count, next))
    (hbehind : (behindCount κ δ).Yields next.skip (some (nodes, last))) :
    ∃ root countNode, (Peg.table κ δ).Yields (Cursor.start text) (some ([root], last)) ∧
      root.kind = .table ∧ root.children = countNode :: nodes ∧ count.ShownBy countNode := by
  obtain ⟨first, hfirst, hskip⟩ := Peg.exists_many_newline (Cursor.start text)
  rw [← hskip] at hcount
  obtain ⟨_, hnumeral, countNode, rfl, hshown⟩ := (follows_numeral .count).yields hcount
  have hstart : Peg.atStart.Yields (Cursor.start text) (some ([], Cursor.start text)) :=
    .atStart_ok rfl
  exact ⟨_, countNode,
    .rule_ok (hstart.followedBy (hfirst.followedBy (hnumeral.followedBy hbehind))),
    rfl, rfl, hshown⟩

/-- There is no table without a count, nor if something else stands behind it. -/
theorem table_fails {text : List Char}
    (h : ∀ {count next}, readNumeral .count (Cursor.start text).skipLines = .ok (count, next) →
      (behindCount κ δ).Yields next.skip none) :
    (Peg.table κ δ).Yields (Cursor.start text) none := by
  obtain ⟨first, hfirst, hskip⟩ := Peg.exists_many_newline (Cursor.start text)
  have hstart : Peg.atStart.Yields (Cursor.start text) (some ([], Cursor.start text)) :=
    .atStart_ok rfl
  refine .rule_fail (hstart.followedBy_fails (hfirst.followedBy_fails ?_))
  rw [hskip]
  cases hcount : readNumeral .count (Cursor.start text).skipLines with
  | error stuck => exact .seq_fail_left ((follows_numeral .count).fails hcount)
  | ok result =>
    obtain ⟨nodes, hnodes, -⟩ := (follows_numeral .count).yields hcount
    exact hnodes.followedBy_fails (h hcount)

variable [Legible κ] [LawfulSpelled κ] [Legible δ] [LawfulSpelled δ]

/-- The rounds of rows behind the count of a text. -/
theorem exists_rounds_of_count {text : List Char} {count : Numeral} {next : Cursor}
    (h : readNumeral .count (Cursor.start text).skipLines = .ok (count, next)) :
    ∃ nodes last, (star (seq blanks (rowRound κ δ))).Yields next (some (nodes, last)) ∧
      GoesWith ([] : List (Row κ δ)) nodes last (readRows next [] [] (text.length + 1)) := by
  have hlt := (follows_numeral .count).shorter h
  have hle : (Cursor.start text).skipLines.rest.length ≤ text.length :=
    Cursor.length_skipLines_le _
  exact exists_rounds_goesWith [] [] rfl (by omega)

/-- A text that reads as a sheet matches the grammar, and the match shows the sheet. -/
theorem exists_root_of_readSheet {text : List Char} {sheet : Sheet κ δ}
    (h : readSheet text = .ok sheet) :
    ∃ root last, (Peg.table κ δ).Yields (Cursor.start text) (some ([root], last)) ∧
      sheet.ShownBy root := by
  obtain ⟨next, hcount, hrows⟩ := Lines.readSheet_eq_ok_iff.mp h
  obtain ⟨nodes, last, hrounds, hgoes⟩ := exists_rounds_of_count (κ := κ) (δ := δ) hcount
  rw [hrows] at hgoes
  obtain ⟨hend, _, rfl, hall⟩ := hgoes
  obtain ⟨node, last', hbehind, hkind⟩ := exists_behindCount hrounds hend
  obtain ⟨root, countNode, hroot, htable, hchildren, hshown⟩ := exists_table hcount hbehind
  exact ⟨root, last', hroot, htable, countNode, nodes, node, hchildren, hshown, hall, hkind⟩

/-- A text that reading is stuck in does not match the grammar. -/
theorem table_fails_of_stuck {text : List Char} {stuck : Stuck}
    (h : (readSheet text : Except Stuck (Sheet κ δ)) = .error stuck) :
    (Peg.table κ δ).Yields (Cursor.start text) none := by
  apply table_fails
  intro count next hcount
  obtain ⟨nodes, last, hrounds, hgoes⟩ := exists_rounds_of_count (κ := κ) (δ := δ) hcount
  refine behindCount_fails hrounds ?_
  rw [readSheet, hcount] at h
  simp only [bind, Except.bind] at h
  cases hrows : (readRows next [] [] (text.length + 1) : Except Stuck (List (Row κ δ))) with
  | error stuck' =>
    rw [hrows] at hgoes
    exact hgoes
  | ok rows =>
    rw [hrows] at h
    cases h

end Sheets

end TapeReduction.Source
