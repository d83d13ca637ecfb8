import TapeReduction.Proofs.LineTable
import TapeReduction.Proofs.Reduced
import TapeReduction.Table.Printer

/-!
# Reading a printed table

In a printed table all tokens are apart by single spaces, so a reader of fields takes
exactly the tokens of what was printed and leaves the rest of the line.  Symbols may
be digits, but a number always ends at a space or at the end of its line.  Each state
but the last has a line of its own with all its rules, and hence the lines of a
printed table say what the table says.

Reading a printed table gives that table, unless the text is too long to be read.
-/

namespace TapeReduction.Lines

open Text (digits)
open Source

/-! ## Numbers -/

theorem isDigit_of_mem_digits {n : Nat} {c : Char} (h : c ∈ digits n) : c.isDigit = true :=
  Nat.isDigit_of_mem_toDigits (by decide) (by decide) h

theorem digits_ne_nil (n : Nat) : digits n ≠ [] :=
  List.ne_nil_of_length_pos Nat.length_toDigits_pos

theorem isBlank_eq_false_of_isDigit {c : Char} (h : c.isDigit = true) : isBlank c = false := by
  apply Bool.eq_false_iff.mpr
  intro hblank
  simp only [isBlank, Bool.or_eq_true, decide_eq_true_eq] at hblank
  rcases hblank with rfl | rfl
  · exact absurd h (by decide)
  · exact absurd h (by decide)

/-- What follows a number: the end of the line, or a character that is no digit. -/
def EndsNumber (rest : List Char) : Prop :=
  rest.takeWhile Char.isDigit = []

/-- A printed number is read up to its end. -/
theorem number?_digits (n : Nat) {rest : List Char} (h : EndsNumber rest) :
    number? (digits n ++ rest) = some (n, rest) := by
  have hdigits : ∀ c ∈ digits n, c.isDigit = true := fun c => isDigit_of_mem_digits
  have htake : (digits n ++ rest).takeWhile Char.isDigit = digits n := by
    rw [List.takeWhile_append_of_pos hdigits, h, List.append_nil]
  have hdrop : (digits n ++ rest).dropWhile Char.isDigit = rest := by
    rw [List.dropWhile_append_of_pos hdigits]
    exact List.dropWhile_eq_self_iff.mpr (List.takeWhile_eq_nil_iff.mp h)
  obtain ⟨c, cs, hcons⟩ := List.exists_cons_of_ne_nil (digits_ne_nil n)
  have htrim : trim (digits n ++ rest) = digits n ++ rest := by
    have hc : isBlank c = false :=
      isBlank_eq_false_of_isDigit (hdigits c (by rw [hcons]; exact List.mem_cons_self ..))
    rw [hcons, List.cons_append, trim, List.dropWhile_cons_of_neg (by simp [hc])]
  rw [number?, htrim, htake, hdrop, hcons]
  dsimp only
  rw [← hcons, digits, Nat.ofDigitChars_toDigits (by decide) (by decide)]

/-! ## Fields -/

/-- Tokens with a space in front of each. -/
def spaced (tokens : List (List Char)) : List Char :=
  tokens.flatMap (' ' :: ·)

theorem spaced_append (tokens tokens' : List (List Char)) :
    spaced (tokens ++ tokens') = spaced tokens ++ spaced tokens' :=
  List.flatMap_append

theorem spaced_cons (token : List Char) (tokens : List (List Char)) :
    spaced (token :: tokens) = ' ' :: (token ++ spaced tokens) :=
  rfl

theorem endsNumber_spaced_append (tokens : List (List Char)) {rest : List Char}
    (h : EndsNumber rest) : EndsNumber (spaced tokens ++ rest) := by
  cases tokens with
  | nil => exact h
  | cons token tokens => rfl

theorem endsNumber_spaced (tokens : List (List Char)) : EndsNumber (spaced tokens) := by
  have hnil : EndsNumber [] := rfl
  have hend := endsNumber_spaced_append tokens hnil
  rwa [List.append_nil] at hend

theorem number?_space (line : List Char) : number? (' ' :: line) = number? line :=
  rfl

/-- The glyphs of a value are code, and a reader takes them from the front of a line. -/
structure ReadsGlyphs {α : Type} [Glyphs α] (field? : Reader α) : Prop where
  isCode_glyph : ∀ {a : α} {c : Char}, c ∈ glyphs a → isCode c = true
  field?_glyphs : ∀ (a : α) (rest : List Char),
    field? (spaced ((glyphs a).map List.singleton) ++ rest) = some (a, rest)

/-- A reader of one character reads the character of a value. -/
theorem readsGlyphs_glyph {α : Type} [Glyphs α] {toChar : α → Char} {letters : List (Char × α)}
    {ofChar? : Char → Option α} (hletters : ∀ c, letters.lookup c = ofChar? c)
    (hvisible : Visible ofChar?) (hglyphs : ∀ a, glyphs a = [toChar a])
    (hchar : ∀ a, ofChar? (toChar a) = some a) : ReadsGlyphs (glyph? letters) where
  isCode_glyph := by
    intro a c h
    rw [hglyphs, List.mem_singleton] at h
    rw [h]
    exact (hvisible (hchar a)).1
  field?_glyphs := by
    intro a rest
    have hspaced : spaced ((glyphs a).map List.singleton) ++ rest = ' ' :: toChar a :: rest := by
      rw [hglyphs]
      rfl
    have htrim : trim (' ' :: toChar a :: rest) = toChar a :: rest := by
      have hspace : isBlank ' ' = true := by decide
      rw [trim, List.dropWhile_cons_of_pos hspace,
        List.dropWhile_cons_of_neg (Bool.eq_false_iff.mp (hvisible (hchar a)).2)]
    rw [hspaced, glyph?, htrim]
    dsimp only
    rw [hletters, hchar]
    rfl

theorem readsGlyphs_symbol : ReadsGlyphs (glyph? symbolLetters) :=
  readsGlyphs_glyph lookup_symbolLetters visible_symbol (fun _ => rfl) Symbol.ofChar?_toChar

theorem readsGlyphs_cell : ReadsGlyphs (glyph? cellLetters) :=
  readsGlyphs_glyph lookup_cellLetters visible_cell (fun _ => rfl) Cell.ofChar?_toChar

theorem readsGlyphs_move : ReadsGlyphs (glyph? moveLetters) :=
  readsGlyphs_glyph lookup_moveLetters visible_move (fun _ => rfl) Move.ofChar?_toChar

theorem ReadsGlyphs.twice {α : Type} [Glyphs α] {field? : Reader α} (h : ReadsGlyphs field?) :
    ReadsGlyphs (twice field?) where
  isCode_glyph := by
    rintro ⟨a, b⟩ c hc
    rcases List.mem_append.mp hc with hc | hc
    · exact h.isCode_glyph hc
    · exact h.isCode_glyph hc
  field?_glyphs := by
    rintro ⟨a, b⟩ rest
    have hglyphs : glyphs (a, b) = glyphs a ++ glyphs b := rfl
    rw [hglyphs, List.map_append, spaced_append, List.append_assoc]
    exact both_eq_some_iff.mpr ⟨_, h.field?_glyphs a _, h.field?_glyphs b rest⟩

section Rules

variable {κ δ : Type} [Glyphs κ] [Glyphs δ] {key? : Reader κ} {move? : Reader δ}
  (hkey : ReadsGlyphs key?) (hmove : ReadsGlyphs move?)
include hkey hmove

/-- A printed rule is read with its key. -/
theorem keyedRule?_tokens (key : κ) (rule : Rule κ δ) {rest : List Char}
    (h : EndsNumber rest) :
    keyedRule? key? move? (spaced (rule.tokens key) ++ rest) = some ((key, rule), rest) := by
  have hnumber := endsNumber_spaced_append ((glyphs rule.write).map List.singleton)
    (endsNumber_spaced_append ((glyphs rule.move).map List.singleton) h)
  rw [Rule.tokens, spaced_append, spaced_cons, spaced_append, keyedRule?]
  simp only [List.append_assoc, List.cons_append]
  rw [hkey.field?_glyphs]
  simp only [Option.bind_eq_bind, Option.bind_some, number?_space]
  rw [number?_digits _ hnumber]
  simp only [Option.bind_some, hkey.field?_glyphs, hmove.field?_glyphs]
  rfl

/-- The printed rules of a row are read, as many as there are. -/
theorem entries?_tokens (rules : List (κ × Rule κ δ)) :
    entries? (keyedRule? key? move?) rules.length
      (spaced (rules.flatMap fun entry => entry.2.tokens entry.1)) = some (rules, []) := by
  induction rules with
  | nil => rfl
  | cons entry rules ih =>
    have hfirst := keyedRule?_tokens hkey hmove entry.1 entry.2
      (endsNumber_spaced (rules.flatMap fun entry => entry.2.tokens entry.1))
    rw [List.flatMap_cons, spaced_append, List.length_cons]
    exact entries?_succ_eq_some_iff.mpr ⟨entry, _, rules, hfirst, ih, rfl⟩

theorem isCode_of_mem_tokens {key : κ} {rule : Rule κ δ} {token : List Char} {c : Char}
    (htoken : token ∈ rule.tokens key) (hc : c ∈ token) : isCode c = true := by
  simp only [Rule.tokens, List.mem_append, List.mem_cons, List.mem_map] at htoken
  rcases htoken with ⟨x, hx, rfl⟩ | rfl | ⟨x, hx, rfl⟩ | ⟨x, hx, rfl⟩
  · obtain rfl := List.mem_singleton.mp hc
    exact hkey.isCode_glyph hx
  · exact isCode_of_isDigit (isDigit_of_mem_digits hc)
  · obtain rfl := List.mem_singleton.mp hc
    exact hkey.isCode_glyph hx
  · obtain rfl := List.mem_singleton.mp hc
    exact hmove.isCode_glyph hx

variable [Alphabet κ]

/-- The line of a state is read as its rules. -/
theorem rowLine?_rowChars (t : Table κ δ) (state : Nat) :
    rowLine? (keyedRule? key? move?) (t.rowChars state) = some (t.rules state) := by
  have hnumber := number?_digits (t.rules state).length
    (endsNumber_spaced ((t.rules state).flatMap fun entry => entry.2.tokens entry.1))
  have hentries := entries?_tokens hkey hmove (t.rules state)
  rw [spaced] at hnumber hentries
  rw [rowLine?, Table.rowChars, hnumber]
  simp only [Option.bind_eq_bind, Option.bind_some, hentries]
  rfl

theorem isCode_of_mem_rowChars {t : Table κ δ} {state : Nat} {c : Char}
    (h : c ∈ t.rowChars state) : isCode c = true := by
  rcases List.mem_append.mp h with hdigit | hspaced
  · exact isCode_of_isDigit (isDigit_of_mem_digits hdigit)
  · obtain ⟨token, htoken, hc⟩ := List.mem_flatMap.mp hspaced
    obtain ⟨entry, -, htoken⟩ := List.mem_flatMap.mp htoken
    rcases List.mem_cons.mp hc with rfl | hc
    · rfl
    · exact isCode_of_mem_tokens hkey hmove htoken hc

end Rules

/-! ## Lines -/

/-- Code up to a comment or a line break is the front of a text. -/
theorem codeLines_append {line rest : List Char} (hcode : ∀ c ∈ line, isCode c = true)
    (hblank : line.all isBlank = false) (hrest : front rest = []) :
    codeLines (line ++ rest) = line :: codeLines rest := by
  have hnext : behind rest = rest :=
    List.dropWhile_eq_self_iff.mpr (List.takeWhile_eq_nil_iff.mp hrest)
  have hfront : front (line ++ rest) = line := by
    have htake : front (line ++ rest) = line ++ front rest :=
      List.takeWhile_append_of_pos hcode
    rw [htake, hrest, List.append_nil]
  have hbehind : behind (line ++ rest) = rest := by
    have hdrop : behind (line ++ rest) = behind rest := List.dropWhile_append_of_pos hcode
    rw [hdrop, hnext]
  rw [codeLines_eq, hfront, hbehind, hblank]
  rfl

/-- Lines of code with something in them, each but the first behind a line break, are the
lines of their text. -/
theorem codeLines_flatMap_break {first : List Char} {ls : List (List Char)}
    (h : ∀ line ∈ first :: ls, (∀ c ∈ line, isCode c = true) ∧ line.all isBlank = false) :
    codeLines (first ++ ls.flatMap ('\n' :: ·)) = first :: ls := by
  induction ls generalizing first with
  | nil =>
    obtain ⟨hcode, hblank⟩ := h first (List.mem_singleton_self first)
    exact codeLines_append hcode hblank rfl
  | cons line ls ih =>
    obtain ⟨⟨hcode, hblank⟩, hmore⟩ := List.forall_mem_cons.mp h
    rw [codeLines_append hcode hblank rfl, List.flatMap_cons, List.cons_append,
      codeLines_cons_of_isBreak (by decide), ih hmore]

theorem all_isBlank_digits_append (n : Nat) (rest : List Char) :
    (digits n ++ rest).all isBlank = false := by
  obtain ⟨c, cs, hcons⟩ := List.exists_cons_of_ne_nil (digits_ne_nil n)
  have hc : c.isDigit = true :=
    isDigit_of_mem_digits (n := n) (by rw [hcons]; exact List.mem_cons_self ..)
  rw [hcons, List.cons_append, List.all_cons, isBlank_eq_false_of_isDigit hc, Bool.false_and]

/-! ## Tables -/

section Tables

variable {κ δ : Type} [Alphabet κ]

/-- The rows of a table: the rules of each state but the last. -/
def tableRows (t : Table κ δ) : List (List (κ × Rule κ δ)) :=
  (List.range t.accepting).map t.rules

theorem holdsRows_tableRows (t : Table κ δ) : HoldsRows t (tableRows t) := by
  intro state key rule
  constructor
  · intro hrule
    have hlt := Draft.lt_size_of_rule? hrule
    have hne : state ≠ t.accepting := by
      rintro rfl
      rw [t.accepting_rule? key] at hrule
      cases hrule
    have haccepting : t.accepting = t.size - 1 := rfl
    refine ⟨t.rules state, ?_, Draft.mem_rules_iff.mpr hrule⟩
    rw [tableRows, List.getElem?_map, List.getElem?_range (by omega)]
    rfl
  · rintro ⟨row, hrow, hmem⟩
    rw [tableRows, List.getElem?_map] at hrow
    obtain ⟨state', hstate, rfl⟩ := Option.map_eq_some_iff.mp hrow
    obtain ⟨_, rfl⟩ := List.getElem?_eq_some_iff.mp hstate
    rw [List.getElem_range] at hmem
    exact Draft.mem_rules_iff.mp hmem

theorem soundRow_rules (t : Table κ δ) (state : Nat) : SoundRow t.size (t.rules state) := by
  constructor
  · rintro ⟨key, rule⟩ hmem
    exact t.closed state key rule (Draft.mem_rules_iff.mp hmem)
  · exact List.pairwise_map.mpr (t.pairwise_rules state)

variable [Glyphs κ] [Glyphs δ] {key? : Reader κ} {move? : Reader δ}
  (hkey : ReadsGlyphs key?) (hmove : ReadsGlyphs move?)
include hkey hmove

theorem codeLines_chars (t : Table κ δ) :
    codeLines t.chars = digits t.size :: (List.range t.accepting).map t.rowChars := by
  have hlines : t.chars =
      digits t.size ++ ((List.range t.accepting).map t.rowChars).flatMap ('\n' :: ·) := by
    rw [Table.chars, List.flatMap_map]
  rw [hlines]
  apply codeLines_flatMap_break
  intro line hline
  rcases List.mem_cons.mp hline with rfl | hline
  · refine ⟨fun c hc => isCode_of_isDigit (isDigit_of_mem_digits hc), ?_⟩
    simpa using all_isBlank_digits_append t.size []
  · obtain ⟨state, -, rfl⟩ := List.mem_map.mp hline
    exact ⟨fun c hc => isCode_of_mem_rowChars hkey hmove hc, all_isBlank_digits_append _ _⟩

theorem mapM_rowLine?_rowChars (t : Table κ δ) (states : List Nat) :
    (states.map t.rowChars).mapM (rowLine? (keyedRule? key? move?)) =
      some (states.map t.rules) := by
  induction states with
  | nil => rfl
  | cons state states ih =>
    rw [List.map_cons, List.mapM_cons, rowLine?_rowChars hkey hmove, ih]
    rfl

/-- The lines of a printed table are read as its number of states and its rows. -/
theorem tableLines?_chars [DecidableEq κ] (t : Table κ δ) :
    tableLines? (keyedRule? key? move?) t.chars = some (t.size, tableRows t) := by
  have hcount : countLine? (digits t.size) = some t.size := by
    have hnumber := number?_digits t.size (show EndsNumber [] from rfl)
    rw [List.append_nil] at hnumber
    exact countLine?_eq_some_iff.mpr ⟨[], hnumber, rfl⟩
  have hlength : (tableRows t).length = t.size - 1 := by
    rw [tableRows, List.length_map, List.length_range]
    rfl
  have hsound : ∀ row ∈ tableRows t, SoundRow t.size row := by
    intro row hrow
    obtain ⟨state, -, rfl⟩ := List.mem_map.mp hrow
    exact soundRow_rules t state
  rw [tableLines?, codeLines_chars hkey hmove]
  simp only [hcount, mapM_rowLine?_rowChars hkey hmove, Option.bind_eq_bind, Option.bind_some]
  exact if_pos ⟨t.size_pos, hlength, hsound⟩

/-- A printed table is read as that table, unless its text is too long. -/
theorem parse_render [DecidableEq κ] [Legible κ] [Legible δ]
    (hentry : Agrees entryRule (readEntry : Cursor → Except Stuck (Entry κ δ × Cursor))
      (keyedRule? key? move?))
    (t : Table κ δ) :
    Table.parse t.render =
      if t.render.utf8ByteSize ≤ maxTableBytes then .ok t
      else .error (.unsound (.oversize t.render.utf8ByteSize)) := by
  by_cases hsize : t.render.utf8ByteSize ≤ maxTableBytes
  · have hchars : t.render.toList = t.chars := String.toList_ofList
    rw [if_pos hsize]
    refine (parse_eq_ok_iff hentry _ t).mpr ⟨hsize, tableRows t, ?_, holdsRows_tableRows t⟩
    rw [hchars]
    exact tableLines?_chars hkey hmove t
  · rw [if_neg hsize, Table.parse, if_pos (Nat.lt_of_not_le hsize)]

end Tables

theorem parse_render_oneTape (t : OneTapeTable) :
    Table.parse t.render =
      if t.render.utf8ByteSize ≤ maxTableBytes then .ok t
      else .error (.unsound (.oversize t.render.utf8ByteSize)) :=
  parse_render readsGlyphs_cell readsGlyphs_move agrees_oneTapeRule t

theorem parse_render_twoTape (t : TwoTapeTable) :
    Table.parse t.render =
      if t.render.utf8ByteSize ≤ maxTableBytes then .ok t
      else .error (.unsound (.oversize t.render.utf8ByteSize)) :=
  parse_render readsGlyphs_symbol.twice readsGlyphs_move.twice agrees_twoTapeRule t

/-- Reading the text of a table gives the table back if the text has at most `maxTableBytes`
bytes, and is refused for its size otherwise.  This holds for tables of one tape and of two,
and so for the table every two-tape table is reduced to. -/
theorem printed_tables_read_back :
    (∀ t : OneTapeTable, Table.parse t.render =
      if t.render.utf8ByteSize ≤ maxTableBytes then .ok t
      else .error (.unsound (.oversize t.render.utf8ByteSize))) ∧
    (∀ t : TwoTapeTable, Table.parse t.render =
      if t.render.utf8ByteSize ≤ maxTableBytes then .ok t
      else .error (.unsound (.oversize t.render.utf8ByteSize))) ∧
    ∀ t : TwoTapeTable, ∃ one, reduce t = .ok one ∧
      Table.parse one.render =
        if one.render.utf8ByteSize ≤ maxTableBytes then .ok one
        else .error (.unsound (.oversize one.render.utf8ByteSize)) := by
  refine ⟨parse_render_oneTape, parse_render_twoTape, ?_⟩
  intro t
  obtain ⟨one, hreduce, -⟩ := Reduction.exists_reduce_eq_ok t
  exact ⟨one, hreduce, parse_render_oneTape one⟩

end TapeReduction.Lines
