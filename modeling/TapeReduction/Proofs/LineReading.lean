import TapeReduction.Source.Reading

/-!
# Reading a table line by line

The text of a table can be read one line at a time, without places in the text
and without looking past the end of a line.  Comments are cut off first and blank
lines are dropped.  Then the first line is the number of states, and each line
behind it is the row of a state: a number, and exactly as many entries.

This is how the format is described; the reader of the library goes through the
text once instead.  The second half of this module says how the lines of a text
follow from its characters: what is in front of the first comment or line break
is the code of the first line, and the other lines are those of the rest.
-/

namespace TapeReduction.Lines

open Text (isBreak)

/-! ## Lines -/

/-- Whether a character may stand between two fields. -/
def isBlank (c : Char) : Bool :=
  c = ' ' || c = '\t'

/-- The lines of a text.  A line ends at a line feed, at a carriage return, or at both if the
line feed comes second. -/
def lines : List Char → List (List Char)
  | [] => [[]]
  | '\r' :: '\n' :: rest => [] :: lines rest
  | c :: rest =>
    if isBreak c then [] :: lines rest
    else (lines rest).modifyHead (c :: ·)

/-- A line up to its first `#`. -/
def code (line : List Char) : List Char :=
  line.takeWhile (· ≠ '#')

/-- The lines of a text without their comments, those with nothing in them left out. -/
def codeLines (text : List Char) : List (List Char) :=
  ((lines text).map code).filter fun line => !line.all isBlank

/-! ## Fields -/

/-- A reader takes something from the front of a line and leaves the rest of it. -/
abbrev Reader (α : Type) :=
  List Char → Option (α × List Char)

/-- A line without the blanks in front. -/
def trim (line : List Char) : List Char :=
  line.dropWhile isBlank

/-- The value of the longest run of digits behind blanks. -/
def number? : Reader Nat := fun line =>
  match (trim line).takeWhile Char.isDigit with
  | [] => none
  | digits => some (Nat.ofDigitChars 10 digits 0, (trim line).dropWhile Char.isDigit)

/-- What the first character behind blanks stands for, by a list of letters. -/
def glyph? {α : Type} (letters : List (Char × α)) : Reader α := fun line =>
  match trim line with
  | [] => none
  | c :: rest => (letters.lookup c).map fun a => (a, rest)

/-- One field, then another. -/
def both {α β : Type} (field? : Reader α) (field'? : Reader β) : Reader (α × β) := fun line => do
  let (a, line) ← field? line
  let (b, line) ← field'? line
  return ((a, b), line)

/-- The same field two times. -/
def twice {α : Type} (field? : Reader α) : Reader (α × α) :=
  both field? field?

section Entries

variable {κ δ ε : Type}

/-- A key, a target, what is written and how the heads move. -/
def keyedRule? (key? : Reader κ) (move? : Reader δ) : Reader (κ × Rule κ δ) := fun line => do
  let (key, line) ← key? line
  let (target, line) ← number? line
  let (write, line) ← key? line
  let (move, line) ← move? line
  return ((key, ⟨target, write, move⟩), line)

/-- A number of entries. -/
def entries? (item? : Reader ε) : Nat → Reader (List ε)
  | 0, line => some ([], line)
  | n + 1, line => do
    let (entry, line) ← item? line
    let (more, line) ← entries? item? n line
    return (entry :: more, line)

/-- The line of a state: a number, as many entries, and nothing else. -/
def rowLine? (item? : Reader ε) (line : List Char) : Option (List ε) := do
  let (count, line) ← number? line
  let (row, line) ← entries? item? count line
  if line.all isBlank then return row else none

/-- The first line: a number, and nothing else. -/
def countLine? (line : List Char) : Option Nat := do
  let (count, line) ← number? line
  if line.all isBlank then return count else none

end Entries

/-- The letters of the symbols of an ordinary tape. -/
def symbolLetters : List (Char × Symbol) :=
  [('_', .blank), ('0', .zero), ('1', .one)]

/-- The letters of cells: those of the symbols, one for each symbol with a head on it, and a
colon for the separator. -/
def cellLetters : List (Char × Cell) :=
  [('_', .plain .blank), ('0', .plain .zero), ('1', .plain .one),
    ('^', .dotted .blank), ('O', .dotted .zero), ('I', .dotted .one), (':', .separator)]

/-- The letters of moves, in either case. -/
def moveLetters : List (Char × Move) :=
  [('L', .left), ('l', .left), ('R', .right), ('r', .right)]

/-- An entry of a one-tape table: symbol, index, symbol, direction. -/
def oneTapeRule? : Reader (Cell × Rule Cell Move) :=
  keyedRule? (glyph? cellLetters) (glyph? moveLetters)

/-- An entry of a two-tape table: two symbols, index, two symbols, two directions. -/
def twoTapeRule? : Reader ((Symbol × Symbol) × Rule (Symbol × Symbol) (Move × Move)) :=
  keyedRule? (twice (glyph? symbolLetters)) (twice (glyph? moveLetters))

/-! ## Tables -/

section Tables

variable {κ δ : Type}

/-- Every target is one of the states, and no key occurs twice. -/
def SoundRow (states : Nat) (row : List (κ × Rule κ δ)) : Prop :=
  (∀ entry ∈ row, entry.2.target < states) ∧ (row.map Prod.fst).Nodup

instance [DecidableEq κ] (states : Nat) (row : List (κ × Rule κ δ)) :
    Decidable (SoundRow states row) :=
  inferInstanceAs (Decidable (_ ∧ _))

/-- The number of states and their rows, the accepting state having none. -/
def tableLines? [DecidableEq κ] (item? : Reader (κ × Rule κ δ)) (text : List Char) :
    Option (Nat × List (List (κ × Rule κ δ))) :=
  match codeLines text with
  | [] => none
  | first :: more => do
    let states ← countLine? first
    let rows ← more.mapM (rowLine? item?)
    if 1 ≤ states ∧ rows.length = states - 1 ∧ ∀ row ∈ rows, SoundRow states row then
      return (states, rows)
    else none

/-- The rules of each state of a table are those of its row, the rows being those of the
first states in order; a state without a row has no rules. -/
def HoldsRows [Alphabet κ] (t : Table κ δ) (rows : List (List (κ × Rule κ δ))) : Prop :=
  ∀ state key rule, t.rule? state key = some rule ↔
    ∃ row, rows[state]? = some row ∧ (key, rule) ∈ row

end Tables

/-! ## The first line of a text -/

/-- A character of the code of a line: neither the start of a comment nor a line break. -/
def isCode (c : Char) : Bool :=
  !(c = '#' || isBreak c)

/-- The code of the line a text starts with. -/
def front (text : List Char) : List Char :=
  text.takeWhile isCode

/-- A text from its first comment or line break on. -/
def behind (text : List Char) : List Char :=
  text.dropWhile isCode

/-- A text from its first line break on. -/
def fromBreak (text : List Char) : List Char :=
  text.dropWhile fun c => !isBreak c

theorem isCode_of_isBlank {c : Char} (h : isBlank c = true) : isCode c = true := by
  simp only [isBlank, Bool.or_eq_true, decide_eq_true_eq] at h
  rcases h with rfl | rfl
  · decide
  · decide

theorem isCode_of_isDigit {c : Char} (h : c.isDigit = true) : isCode c = true := by
  simp only [isCode, isBreak, Bool.not_eq_true', Bool.or_eq_false_iff, decide_eq_false_iff_not]
  refine ⟨?_, ?_, ?_⟩
  · rintro rfl
    exact absurd h (by decide)
  · rintro rfl
    exact absurd h (by decide)
  · rintro rfl
    exact absurd h (by decide)

theorem ne_hash_of_isCode {c : Char} (h : isCode c = true) : c ≠ '#' := by
  rintro rfl
  exact absurd h (by decide)

theorem isBreak_eq_false_of_isCode {c : Char} (h : isCode c = true) : isBreak c = false := by
  simp only [isCode, Bool.not_eq_true', Bool.or_eq_false_iff] at h
  exact h.2

theorem isCode_of_behind_eq_cons {text rest : List Char} {c : Char}
    (h : behind text = c :: rest) : isCode c = false := by
  have hhead := List.head?_dropWhile_not isCode text
  rw [behind] at h
  simpa [h] using hhead

theorem isBreak_of_fromBreak_eq_cons {text rest : List Char} {c : Char}
    (h : fromBreak text = c :: rest) : isBreak c = true := by
  have hhead := List.head?_dropWhile_not (fun c => !isBreak c) text
  rw [fromBreak] at h
  simpa [h] using hhead

theorem front_fromBreak (text : List Char) : front (fromBreak text) = [] := by
  cases h : fromBreak text with
  | nil => rfl
  | cons c rest => simp [front, isCode, isBreak_of_fromBreak_eq_cons h]

section Runs

variable {p : Char → Bool} (hp : ∀ {c}, p c = true → isCode c = true) (text : List Char)
include hp

/-- A run of code characters at the start of a text is at the start of its first line. -/
theorem takeWhile_front : (front text).takeWhile p = text.takeWhile p := by
  induction text with
  | nil => rfl
  | cons c rest ih =>
    by_cases hc : p c = true
    · simpa [front, hp hc, hc] using ih
    · by_cases hcode : isCode c = true
      · simp [front, hcode, hc]
      · simp [front, hcode, hc]

theorem dropWhile_front : (front text).dropWhile p = front (text.dropWhile p) := by
  induction text with
  | nil => rfl
  | cons c rest ih =>
    by_cases hc : p c = true
    · simpa [front, hp hc, hc] using ih
    · by_cases hcode : isCode c = true
      · simp [front, hcode, hc]
      · simp [front, hcode, hc]

theorem behind_dropWhile : behind (text.dropWhile p) = behind text := by
  induction text with
  | nil => rfl
  | cons c rest ih =>
    by_cases hc : p c = true
    · simpa [behind, hp hc, hc] using ih
    · simp [hc]

end Runs

/-! ## The lines of a text, from its characters -/

theorem lines_cons_of_not_isBreak {c : Char} (h : isBreak c = false) (rest : List Char) :
    lines (c :: rest) = (lines rest).modifyHead (c :: ·) := by
  rw [lines, h]
  · rfl
  · rintro more rfl rfl
    exact absurd h (by decide)

/-- A line break ends an empty line. -/
theorem exists_lines_cons_of_isBreak {c : Char} (h : isBreak c = true) (rest : List Char) :
    ∃ more, lines (c :: rest) = [] :: more ∧
      (more.map code).filter (fun line => !line.all isBlank) = codeLines rest := by
  by_cases hpair : c = '\r' ∧ ∃ more, rest = '\n' :: more
  · obtain ⟨rfl, more, rfl⟩ := hpair
    refine ⟨lines more, by rw [lines], ?_⟩
    -- The line feed on its own would only have ended one more empty line.
    have hfeed : lines ('\n' :: more) = [] :: lines more := by
      rw [lines]
      · rfl
      · rintro _ hne
        exact absurd hne (by decide)
    simp [codeLines, hfeed, code]
  · refine ⟨lines rest, ?_, rfl⟩
    rw [lines, h]
    · rfl
    · rintro more rfl rfl
      exact hpair ⟨rfl, more, rfl⟩

/-- The first line of a text is its front, and the others are those of what is behind. -/
theorem exists_map_code_lines (text : List Char) :
    ∃ more, (lines text).map code = front text :: more ∧
      more.filter (fun line => !line.all isBlank) = codeLines (behind text) := by
  induction text with
  | nil => exact ⟨[], rfl, rfl⟩
  | cons c rest ih =>
    by_cases hbreak : isBreak c = true
    · obtain ⟨more, hlines, hmore⟩ := exists_lines_cons_of_isBreak hbreak rest
      have hcode : isCode c = false := by simp [isCode, hbreak]
      refine ⟨more.map code, ?_, ?_⟩
      · simp [hlines, front, hcode, code]
      · simp [behind, hcode, codeLines, hlines, code]
    · have hlines := lines_cons_of_not_isBreak (Bool.eq_false_iff.mpr hbreak) rest
      obtain ⟨more, hmap, hmore⟩ := ih
      obtain ⟨line, others, hrest⟩ : ∃ line others, lines rest = line :: others := by
        cases hrest : lines rest with
        | nil => simp [hrest] at hmap
        | cons line others => exact ⟨line, others, rfl⟩
      rw [hrest, List.map_cons, List.cons.injEq] at hmap
      rw [hrest, List.modifyHead_cons] at hlines
      by_cases hhash : c = '#'
      · subst hhash
        refine ⟨others.map code, ?_, ?_⟩
        · simp [hlines, front, isCode, code]
        · simp [behind, isCode, codeLines, hlines, code]
      · have hcode : isCode c = true := by simp [isCode, hhash, hbreak]
        refine ⟨more, ?_, ?_⟩
        · rw [hlines, List.map_cons, hmap.2, front, List.takeWhile_cons_of_pos hcode]
          have hhead : code (c :: line) = c :: code line := by simp [code, hhash]
          rw [hhead, hmap.1]
          rfl
        · rw [hmore, behind, behind, List.dropWhile_cons_of_pos hcode]

/-- The code lines of a text are its front, unless that is blank, and those of what is
behind. -/
theorem codeLines_eq (text : List Char) :
    codeLines text =
      if (front text).all isBlank then codeLines (behind text)
      else front text :: codeLines (behind text) := by
  obtain ⟨more, hmap, hmore⟩ := exists_map_code_lines text
  rw [codeLines, hmap, List.filter_cons, hmore]
  cases (front text).all isBlank with
  | true => rfl
  | false => rfl

theorem codeLines_cons_of_isBreak {c : Char} (h : isBreak c = true) (rest : List Char) :
    codeLines (c :: rest) = codeLines rest := by
  obtain ⟨more, hlines, hmore⟩ := exists_lines_cons_of_isBreak h rest
  rw [← hmore, codeLines, hlines]
  simp [code]

/-- Only the first line ends at the first line break. -/
theorem tail_lines_fromBreak (text : List Char) :
    (lines (fromBreak text)).tail = (lines text).tail := by
  induction text with
  | nil => rfl
  | cons c rest ih =>
    by_cases hbreak : isBreak c = true
    · simp [fromBreak, hbreak]
    · have hlines := lines_cons_of_not_isBreak (Bool.eq_false_iff.mpr hbreak) rest
      have hdrop : fromBreak (c :: rest) = fromBreak rest := by simp [fromBreak, hbreak]
      rw [hdrop, ih, hlines, List.tail_modifyHead]

/-- A comment reaches to the next line break. -/
theorem codeLines_cons_hash (rest : List Char) :
    codeLines ('#' :: rest) = codeLines (fromBreak rest) := by
  -- Both texts start with a line without code, and go on with the same lines.
  have hcode : ∀ text, front text = [] →
      codeLines text = ((lines text).tail.map code).filter fun line => !line.all isBlank := by
    intro text hfront
    obtain ⟨more, hmap, -⟩ := exists_map_code_lines text
    have htail : (lines text).tail.map code = more := by
      rw [List.map_tail, hmap, List.tail_cons]
    rw [codeLines, hmap, htail, hfront]
    rfl
  have hlines : lines ('#' :: rest) = (lines rest).modifyHead ('#' :: ·) :=
    lines_cons_of_not_isBreak (by decide) rest
  rw [hcode ('#' :: rest) (by simp [front, isCode]), hcode _ (front_fromBreak rest),
    tail_lines_fromBreak, hlines, List.tail_modifyHead]

/-- What is behind the code of a line is a comment, which can be left out. -/
theorem codeLines_fromBreak_behind (text : List Char) :
    codeLines (fromBreak (behind text)) = codeLines (behind text) := by
  cases hbehind : behind text with
  | nil => rfl
  | cons c rest =>
    have hc := isCode_of_behind_eq_cons hbehind
    by_cases hbreak : isBreak c = true
    · simp [fromBreak, hbreak]
    · have hhash : c = '#' := by simpa [isCode, hbreak] using hc
      subst hhash
      rw [codeLines_cons_hash]
      rfl

/-! ## Sizes -/

/-- The number of characters of lines, one more counted for each line. -/
def weight : List (List Char) → Nat
  | [] => 0
  | line :: ls => line.length + 1 + weight ls

theorem weight_cons (line : List Char) (ls : List (List Char)) :
    weight (line :: ls) = line.length + 1 + weight ls :=
  rfl

theorem length_le_weight (ls : List (List Char)) : ls.length ≤ weight ls := by
  induction ls with
  | nil => exact Nat.le_refl 0
  | cons line ls ih =>
    rw [List.length_cons, weight_cons]
    omega

/-- The lines of a text share its characters and its line breaks. -/
theorem weight_lines_le (text : List Char) : weight (lines text) ≤ text.length + 1 := by
  induction text using lines.induct with
  | case1 => exact Nat.le_refl 1
  | case2 rest ih =>
    rw [lines, weight_cons, List.length_cons, List.length_cons, List.length_nil]
    omega
  | case3 c rest hpair hbreak ih =>
    rw [lines, if_pos hbreak, weight_cons, List.length_cons, List.length_nil]
    · omega
    · exact hpair
  | case4 c rest _ hbreak ih =>
    rw [lines_cons_of_not_isBreak (Bool.eq_false_iff.mpr hbreak), List.length_cons]
    cases hrest : lines rest with
    | nil => exact Nat.zero_le _
    | cons first more =>
      rw [hrest, weight_cons] at ih
      rw [List.modifyHead_cons, weight_cons, List.length_cons]
      omega

theorem weight_codeLines_le (text : List Char) : weight (codeLines text) ≤ text.length + 1 := by
  -- Comments and blank lines only take characters away.
  have hcode : ∀ ls : List (List Char),
      weight ((ls.map code).filter fun line => !line.all isBlank) ≤ weight ls := by
    intro ls
    induction ls with
    | nil => exact Nat.le_refl 0
    | cons line ls ih =>
      have hline : (code line).length ≤ line.length := (List.takeWhile_sublist _).length_le
      rw [List.map_cons, List.filter_cons]
      split
      · rw [weight_cons, weight_cons]
        omega
      · rw [weight_cons]
        omega
  exact Nat.le_trans (hcode (lines text)) (weight_lines_le text)

end TapeReduction.Lines
