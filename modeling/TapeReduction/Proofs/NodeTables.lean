import TapeReduction.Proofs.GrammarReading

/-!
# Tables made from nodes

Nodes that show a sheet are turned into the table that the sheet makes, or into the
same fault.  So for a text that matches the grammar, no rule ends too early, no token
is empty and every character stands for something: the parts that would refuse these
are never reached.
-/

namespace TapeReduction.Source

/-! ## Numbers -/

theorem wordOfText?_of_digits {digits : List Char} (hne : digits ≠ [])
    (hall : digits.all Char.isDigit = true) : wordOfText? digits = Text.wordOfDigits 0 digits := by
  unfold wordOfText?
  dsimp only
  split
  · -- No digit is a plus sign.
    simp at hall
  · exact if_pos ⟨hne, hall⟩

theorem Numeral.ShownBy.word_eq {n : Numeral} {node : Node} (h : n.ShownBy node)
    (text : List Char) (issue : Issue) : node.word text issue = n.value text issue := by
  rw [Node.word, h.text_eq, wordOfText?_of_digits h.digits_ne_nil h.all_isDigit, Node.excerpt,
    h.start_eq, h.stop_eq]
  rfl

/-! ## Entries and rows -/

theorem mapM_eq_of_forall₂ {α β γ ε : Type} {R : α → β → Prop} {f : α → Except ε γ}
    {g : β → Except ε γ} (hfg : ∀ a b, R a b → f a = g b) {as : List α} {bs : List β}
    (h : List.Forall₂ R as bs) : as.mapM f = bs.mapM g := by
  induction h with
  | nil => rfl
  | cons hab _ ih => rw [List.mapM_cons, List.mapM_cons, hfg _ _ hab, ih]

/-- Where all nodes show something of one kind, none is passed over. -/
theorem filter_kind_of_forall₂ {α : Type} {R : α → Node → Prop} {kind : Kind}
    (hkind : ∀ a node, R a node → node.kind = kind) {as : List α} {nodes : List Node}
    (h : List.Forall₂ R as nodes) : nodes.filter (fun node => node.kind = kind) = nodes := by
  induction h with
  | nil => rfl
  | @cons a node _ _ hnode _ ih =>
    have hpos : decide (node.kind = kind) = true := decide_eq_true (hkind a node hnode)
    rw [List.filter_cons, if_pos hpos, ih]

section Rows

variable {κ δ : Type} [Spelled κ] [Spelled δ]

theorem Entry.ShownBy.rule_eq {entry : Entry κ δ} {node : Node} (h : entry.ShownBy node)
    (text : List Char) : node.rule text = entry.rule text := by
  obtain ⟨-, key, target, write, move, hchildren, hkey, htarget, hwrite, hmove⟩ := h
  have hmove := hmove text node []
  rw [List.append_nil] at hmove
  rw [Node.rule, hchildren, hkey, Entry.rule]
  simp only [bind, Except.bind, Node.next, htarget.word_eq]
  cases entry.target.value text .indexTooLarge with
  | error fault => rfl
  | ok value => simp only [hwrite text node move, hmove, pure, Except.pure]

theorem Row.ShownBy.rules_eq {row : Row κ δ} {node : Node} (h : row.ShownBy node)
    (text : List Char) (state : Nat) : node.rules text state = row.rules text state := by
  obtain ⟨-, hstart, hstop, count, entries, hchildren, hcount, hentries⟩ := h
  have hrules : entries.mapM (Node.rule text) = row.entries.mapM (Entry.rule text) :=
    (mapM_eq_of_forall₂ (fun _ _ hentry => (hentry.rule_eq text).symm) hentries).symm
  rw [Node.rules, hchildren, Row.rules, ← hcount.word_eq, ← hrules, Node.excerpt, hstart, hstop]
  simp only [Node.next, bind, Except.bind, filter_kind_of_forall₂ (fun _ _ h => h.1) hentries]

variable [DecidableEq κ] [Glyphs κ]

theorem addRowNodes_eq {rows : List (Row κ δ)} {nodes : List Node}
    (h : List.Forall₂ Row.ShownBy rows nodes) (text : List Char) (state : Nat)
    (d : Draft κ δ) : addRowNodes text state d nodes = addRows text state d rows := by
  induction h generalizing state d with
  | nil => rfl
  | cons hrow _ ih => simp only [addRowNodes, addRows, hrow.rules_eq, ih]

/-! ## Tables -/

variable [Alphabet κ]

theorem Sheet.ShownBy.table_eq {sheet : Sheet κ δ} {node : Node} (h : sheet.ShownBy node)
    (text : List Char) : node.table text = sheet.table text := by
  obtain ⟨-, count, rows, last, hchildren, hcount, hrows, hlast⟩ := h
  have hfilter : (rows ++ [last]).filter (fun node => node.kind = .row) = rows := by
    rw [List.filter_append, filter_kind_of_forall₂ (fun _ _ h => h.1) hrows,
      List.filter_cons_of_neg (by simp [hlast]), List.filter_nil, List.append_nil]
  rw [Node.table, hchildren, Sheet.table, hrows.length_eq]
  simp only [Node.next, bind, Except.bind, hcount.word_eq, hfilter, addRowNodes_eq hrows]

end Rows

section Texts

variable {κ δ : Type} [DecidableEq κ] [Alphabet κ] [Glyphs κ]
  [Legible κ] [Spelled κ] [LawfulSpelled κ] [Legible δ] [Spelled δ] [LawfulSpelled δ]

/-- A text of bounded size that matches the grammar is read as the sheet that the match
shows. -/
theorem exists_sheet_of_yields {text : String} {nodes : List Node} {last : Cursor}
    (hsize : text.utf8ByteSize ≤ maxTableBytes)
    (h : (Peg.table κ δ).Yields (Cursor.start text.toList) (some (nodes, last))) :
    ∃ (root : Node) (sheet : Sheet κ δ), nodes = [root] ∧ sheet.ShownBy root ∧
      Table.parse text = sheet.table text.toList := by
  cases hread : (readSheet text.toList : Except Stuck (Sheet κ δ)) with
  | error stuck => cases h.unique (table_fails_of_stuck hread)
  | ok sheet =>
    obtain ⟨root, last', hroot, hshown⟩ := exists_root_of_readSheet hread
    cases h.unique hroot
    refine ⟨root, sheet, rfl, hshown, ?_⟩
    rw [Table.parse, if_neg (Nat.not_lt.mpr hsize), hread]

/-- A text of bounded size that does not match the grammar is refused for what is missing at
some place. -/
theorem exists_expected_of_fails {text : String} (hsize : text.utf8ByteSize ≤ maxTableBytes)
    (h : (Peg.table κ δ).Yields (Cursor.start text.toList) none) :
    ∃ place tokens, (Table.parse text : Except Fault (Table κ δ)) =
      .error (.unreadable place (.expected tokens)) := by
  cases hread : (readSheet text.toList : Except Stuck (Sheet κ δ)) with
  | error stuck =>
    exact ⟨_, _, by rw [Table.parse, if_neg (Nat.not_lt.mpr hsize), hread]⟩
  | ok sheet =>
    obtain ⟨root, last, hroot, -⟩ := exists_root_of_readSheet hread
    cases h.unique hroot

/-- Every text matches the grammar or does not. -/
theorem table_fails_or_yields (κ δ : Type) [Legible κ] [Spelled κ] [LawfulSpelled κ]
    [Legible δ] [Spelled δ] [LawfulSpelled δ] (text : List Char) :
    (Peg.table κ δ).Yields (Cursor.start text) none ∨
      ∃ root last, (Peg.table κ δ).Yields (Cursor.start text) (some ([root], last)) := by
  cases hread : (readSheet text : Except Stuck (Sheet κ δ)) with
  | error stuck => exact .inl (table_fails_of_stuck hread)
  | ok sheet =>
    obtain ⟨root, last, hroot, -⟩ := exists_root_of_readSheet hread
    exact .inr ⟨root, last, hroot⟩

end Texts

end TapeReduction.Source
