import Mathlib.Data.List.Forall2
import TapeReduction.Proofs.LineFields

/-!
# Sheets read from a text and from its lines

A line reads as a row with a number and entries if the number is at its front and
the entries, as many as there are, fill the rest of it.  The number need not be
that of the entries yet.  Reading a text as a sheet and reading its lines as rows
come to the same: every sheet that is read is read from the lines, and what can be
read from the lines is read as a sheet.

Both directions go round by round.  A round of reading entries takes one entry from
the line, and a round of reading rows takes one line from the text, so the length
of the text bounds them.
-/

namespace TapeReduction.Lines

open Text (isBreak)
open Source

/-! ## Entries -/

section Entries

variable {ε : Type} {item? : Reader ε}

theorem entries?_succ_eq_some_iff {n : Nat} {line last : List Char} {es : List ε} :
    entries? item? (n + 1) line = some (es, last) ↔
      ∃ e rest more, item? line = some (e, rest) ∧
        entries? item? n rest = some (more, last) ∧ es = e :: more := by
  simp only [entries?, Option.bind_eq_bind, Option.bind_eq_some_iff, Prod.exists, Option.pure_def,
    Option.some.injEq, Prod.mk.injEq]
  constructor
  · rintro ⟨e, rest, he, more, _, hmore, rfl, rfl⟩
    exact ⟨e, rest, more, he, hmore, rfl⟩
  · rintro ⟨e, rest, more, he, hmore, rfl⟩
    exact ⟨e, rest, he, more, last, hmore, rfl, rfl⟩

/-- A number of entries is read, each from at least one character. -/
theorem length_of_entries?
    (hshort : ∀ {line : List Char} {e : ε} {rest : List Char},
      item? line = some (e, rest) → rest.length < line.length)
    {n : Nat} {line last : List Char} {es : List ε}
    (h : entries? item? n line = some (es, last)) :
    es.length = n ∧ n + last.length ≤ line.length := by
  induction n generalizing line es with
  | zero =>
    obtain ⟨rfl, rfl⟩ := Prod.mk.inj (Option.some.inj h)
    exact ⟨rfl, Nat.le_of_eq (Nat.zero_add _)⟩
  | succ n ih =>
    obtain ⟨e, rest, more, he, hmore, rfl⟩ := entries?_succ_eq_some_iff.mp h
    obtain ⟨hlength, hle⟩ := ih hmore
    have hlt := hshort he
    refine ⟨congrArg (· + 1) hlength, ?_⟩
    omega

end Entries

/-! ## Lines -/

/-- What is left of a text from its first code line on, without the blanks in front of it:
nothing if there is no such line. -/
def FirstCode (text left : List Char) : Prop :=
  left = [] ∧ codeLines text = [] ∨
    ∃ line, codeLines text = line :: codeLines (behind left) ∧ trim line = front left ∧
      trim line ≠ []

theorem FirstCode.of_codeLines_eq {text text' left : List Char} (h : FirstCode text left)
    (heq : codeLines text' = codeLines text) : FirstCode text' left := by
  rw [FirstCode, heq]
  exact h

theorem FirstCode.cons_of_isBlank {c : Char} {rest left : List Char} (h : FirstCode rest left)
    (hc : isBlank c = true) : FirstCode (c :: rest) left := by
  have hfront : front (c :: rest) = c :: front rest := by simp [front, isCode_of_isBlank hc]
  have hbehind : behind (c :: rest) = behind rest := by simp [behind, isCode_of_isBlank hc]
  have hlines := codeLines_eq (c :: rest)
  rw [hfront, hbehind, List.all_cons, hc, Bool.true_and] at hlines
  by_cases hblank : (front rest).all isBlank = true
  · apply h.of_codeLines_eq
    rw [hlines, codeLines_eq rest, if_pos hblank, if_pos hblank]
  · -- The line goes on behind the blank, so the blank is one more in front of its code.
    have hrest := codeLines_eq rest
    rw [if_neg hblank] at hlines hrest
    have htrim : trim (c :: front rest) = trim (front rest) := by simp [trim, hc]
    rcases h with ⟨-, hnil⟩ | ⟨line, hline, hleft, hne⟩
    · rw [hrest] at hnil
      cases hnil
    · obtain ⟨rfl, hmore⟩ := List.cons.inj (hrest.symm.trans hline)
      exact .inr ⟨c :: front rest, by rw [hlines, hmore], htrim.trans hleft, htrim ▸ hne⟩

theorem firstCode_self {c : Char} (hcode : isCode c = true) (hblank : isBlank c = false)
    (rest : List Char) : FirstCode (c :: rest) (c :: rest) := by
  have hfront : front (c :: rest) = c :: front rest := by simp [front, hcode]
  have htrim : trim (front (c :: rest)) = front (c :: rest) := by simp [hfront, trim, hblank]
  refine .inr ⟨front (c :: rest), ?_, htrim, ?_⟩
  · rw [codeLines_eq, if_neg]
    simp [hfront, hblank]
  · rw [htrim, hfront]
    exact List.cons_ne_nil _ _

/-- Skipping lines ends at the first code line.  Inside a comment the rest of the line does
not count. -/
theorem firstCode_skipBlanks (comment : Bool) (offset : Nat) (text : List Char) :
    FirstCode (if comment then fromBreak text else text)
      (skipBlanks true comment offset text).rest := by
  induction text generalizing comment offset with
  | nil => cases comment <;> exact .inl ⟨rfl, rfl⟩
  | cons c rest ih =>
    by_cases hbreak : isBreak c = true
    · have hseen : (if comment then fromBreak (c :: rest) else c :: rest) = c :: rest := by
        cases comment <;> simp [fromBreak, hbreak]
      have hskip : skipBlanks true comment offset (c :: rest) =
          skipBlanks true false (offset + 1) rest := by simp [skipBlanks, hbreak]
      rw [hseen, hskip]
      exact (ih false (offset + 1)).of_codeLines_eq (codeLines_cons_of_isBreak hbreak rest)
    · cases comment with
      | true => simpa [skipBlanks, hbreak, fromBreak] using ih true (offset + 1)
      | false =>
        by_cases hblank : isBlank c = true
        · have hc : c = ' ' ∨ c = '\t' := by simpa [isBlank] using hblank
          have hskip : skipBlanks true false offset (c :: rest) =
              skipBlanks true false (offset + 1) rest := by simp [skipBlanks, hbreak, hc]
          rw [hskip]
          exact (ih false (offset + 1)).cons_of_isBlank hblank
        · have hc : ¬(c = ' ' ∨ c = '\t') := by simpa [isBlank] using hblank
          by_cases hhash : c = '#'
          · subst hhash
            have hskip : skipBlanks true false offset ('#' :: rest) =
                skipBlanks true true (offset + 1) rest := by simp [skipBlanks, hbreak]
            rw [hskip]
            exact (ih true (offset + 1)).of_codeLines_eq (codeLines_cons_hash rest)
          · have hskip : (skipBlanks true false offset (c :: rest)).rest = c :: rest := by
              simp [skipBlanks, hbreak, hc, hhash]
            have hcode : isCode c = true := by simp [isCode, hhash, hbreak]
            rw [hskip]
            exact firstCode_self hcode (Bool.eq_false_iff.mpr hblank) rest

theorem firstCode_skipLines (c : Cursor) : FirstCode c.rest c.skipLines.rest :=
  firstCode_skipBlanks false c.offset c.rest

/-- A number read behind skipped lines is at the front of the first code line. -/
theorem exists_codeLines_of_readNumeral {token : Token} {c next : Cursor} {n : Numeral}
    (h : readNumeral token c.skipLines = .ok (n, next)) :
    ∃ line, codeLines c.rest = line :: codeLines (behind next.rest) ∧
      number? line = some (number n, front next.rest) := by
  obtain ⟨hfront, hbehind⟩ := behind_of_readNumeral h
  rcases firstCode_skipLines c with ⟨hnil, -⟩ | ⟨line, hline, htrim, -⟩
  · rw [hnil] at hfront
    exact absurd rfl hfront
  · refine ⟨line, by rw [hline, hbehind], ?_⟩
    have hread := outcome_readNumeral token htrim.symm
    rw [h] at hread
    exact hread.symm

/-- A number at the front of the first code line is read behind skipped lines. -/
theorem exists_readNumeral_eq_ok (token : Token) {c : Cursor} {line rest : List Char}
    {more : List (List Char)} {n : Nat}
    (hline : codeLines c.rest = line :: more) (hnumber : number? line = some (n, rest)) :
    ∃ numeral next, readNumeral token c.skipLines = .ok (numeral, next) ∧
      number numeral = n ∧ front next.rest = rest ∧ codeLines (behind next.rest) = more := by
  rcases firstCode_skipLines c with ⟨-, hnil⟩ | ⟨line', hline', htrim, -⟩
  · rw [hline] at hnil
    cases hnil
  · obtain ⟨rfl, rfl⟩ := List.cons.inj (hline.symm.trans hline')
    have hread := outcome_readNumeral token htrim.symm
    rw [hnumber] at hread
    cases hresult : readNumeral token c.skipLines with
    | error stuck =>
      rw [hresult] at hread
      cases hread
    | ok result =>
      obtain ⟨numeral, next⟩ := result
      rw [hresult] at hread
      obtain ⟨hvalue, hrest⟩ := Prod.mk.inj (Option.some.inj hread)
      exact ⟨numeral, next, rfl, hvalue, hrest, by rw [(behind_of_readNumeral hresult).2]⟩

section Rows

variable {κ δ : Type} [Legible κ] [Legible δ] {item? : Reader (κ × Rule κ δ)}
  (hentry : Agrees entryRule (readEntry : Cursor → Except Stuck (Entry κ δ × Cursor)) item?)
include hentry

/-- Entries read from a text are read from the line, and leave the rest of the line. -/
theorem entries?_of_readEntries {fuel : Nat} {c past : Cursor} {done all : List (Entry κ δ)}
    {tokens : List Token} (h : readEntries c done fuel = .ok (all, past, tokens)) :
    ∃ new, all = done.reverse ++ new ∧
      entries? item? new.length (front c.rest) =
        some (new.map entryRule, front past.rest) ∧
      behind past.rest = behind c.rest := by
  induction fuel generalizing c done with
  | zero =>
    simp only [readEntries, Except.ok.injEq, Prod.mk.injEq] at h
    obtain ⟨rfl, rfl, -⟩ := h
    exact ⟨[], by simp, rfl, rfl⟩
  | succ fuel ih =>
    rw [readEntries] at h
    cases hread : (readEntry c.skip : Except Stuck (Entry κ δ × Cursor)) with
    | ok result =>
      obtain ⟨e, next⟩ := result
      rw [hread] at h
      obtain ⟨new, rfl, hnew, hbehind⟩ := ih h
      refine ⟨e :: new, by simp, ?_, hbehind.trans (hentry.behind_eq hread)⟩
      exact entries?_succ_eq_some_iff.mpr
        ⟨entryRule e, front next.rest, new.map entryRule, hentry.field?_eq hread, hnew, rfl⟩
    | error stuck =>
      rw [hread] at h
      dsimp only at h
      split at h
      · simp only [Except.ok.injEq, Prod.mk.injEq] at h
        obtain ⟨rfl, rfl, -⟩ := h
        exact ⟨[], by simp, rfl, rfl⟩
      · cases h

/-- Entries that fill a line are read from a text, given a round for each of them. -/
theorem exists_readEntries_eq_ok {n : Nat} (fuel : Nat) {c : Cursor}
    (done : List (Entry κ δ)) {es : List (κ × Rule κ δ)} {last : List Char}
    (h : entries? item? n (front c.rest) = some (es, last)) (hlast : last.all isBlank = true)
    (hfuel : n ≤ fuel) :
    ∃ new past tokens, readEntries c done fuel = .ok (done.reverse ++ new, past, tokens) ∧
      new.map entryRule = es ∧ front past.rest = last ∧ behind past.rest = behind c.rest := by
  induction n generalizing fuel c done es with
  | zero =>
    obtain ⟨rfl, rfl⟩ := Prod.mk.inj (Option.some.inj h)
    cases fuel with
    | zero => exact ⟨[], c, [], by simp [readEntries], rfl, rfl, rfl⟩
    | succ fuel =>
      obtain ⟨tokens, hstuck⟩ := hentry.stuck (all_isBlank_iff.mp hlast)
      exact ⟨[], c, tokens, by simp [readEntries, hstuck], rfl, rfl, rfl⟩
  | succ n ih =>
    obtain ⟨fuel, rfl⟩ := Nat.exists_eq_add_of_le' (Nat.le_trans (Nat.le_add_left 1 n) hfuel)
    obtain ⟨_, _, more, hfirst, hmore, rfl⟩ := entries?_succ_eq_some_iff.mp h
    obtain ⟨e, next, hread, rfl, rfl⟩ := hentry.exists_read_eq hfirst
    obtain ⟨new, past, tokens, hnew, rfl, hfront, hbehind⟩ :=
      ih fuel (e :: done) hmore (Nat.le_of_succ_le_succ hfuel)
    refine ⟨e :: new, past, tokens, ?_, rfl, hfront, hbehind.trans (hentry.behind_eq hread)⟩
    rw [readEntries, hread]
    simpa using hnew

omit hentry

/-! ## Rows -/

/-- A line starts with a number, and entries fill the rest of it. -/
def RowReads {ε : Type} (item? : Reader ε) (line : List Char) (row : Nat × List ε) : Prop :=
  ∃ rest last, number? line = some (row.1, rest) ∧
    entries? item? row.2.length rest = some (row.2, last) ∧ last.all isBlank = true

/-- The number and the rules of a row. -/
def rowRules (row : Row κ δ) : Nat × List (κ × Rule κ δ) :=
  (number row.count, row.entries.map entryRule)

theorem rest_skip_of_blank {c : Cursor} (h : (front c.rest).all isBlank = true) :
    c.skip.rest = fromBreak (behind c.rest) := by
  rcases skip_cases c with ⟨-, hrest⟩ | ⟨x, rest, -, -, htrim, -⟩
  · exact hrest
  · rw [all_isBlank_iff.mp h] at htrim
    cases htrim

theorem codeLines_skip {c : Cursor} (h : (front c.rest).all isBlank = true) :
    codeLines c.skip.rest = codeLines (behind c.rest) := by
  rw [rest_skip_of_blank h, codeLines_fromBreak_behind]

/-- At the end of a line, reading rows goes on with the number of the next row, if there is
one. -/
theorem readRows_of_blank {c : Cursor} (h : (front c.rest).all isBlank = true)
    (tokens : List Token) (done : List (Row κ δ)) (fuel : Nat) :
    readRows c tokens done (fuel + 1) =
      match readNumeral .count c.skip.skipLines with
      | .error stuck =>
        if c.skip.skipLines.rest.isEmpty then .ok done.reverse
        else .error ⟨stuck.offset, .endOfInput :: stuck.expected⟩
      | .ok (count, next) =>
        match readEntries next [] fuel with
        | .error stuck => .error stuck
        | .ok (entries, past, tokens) =>
          readRows past tokens (Row.ofEntries count entries past :: done) fuel := by
  have hrest := rest_skip_of_blank h
  rw [readRows]
  cases hskip : c.skip.rest with
  | nil => simp [Cursor.skipLines, hskip, skipBlanks, readNumeral]
  | cons x rest =>
    rw [hskip] at hrest
    exact if_pos (isBreak_of_fromBreak_eq_cons hrest.symm)

/-- Rows are read only from the end of a line on. -/
theorem blank_of_readRows {c : Cursor} {tokens : List Token} {done all : List (Row κ δ)}
    {fuel : Nat} (h : readRows c tokens done (fuel + 1) = .ok all) :
    (front c.rest).all isBlank = true := by
  rcases skip_cases c with ⟨hend, -⟩ | ⟨x, rest, hcode, hrest, -, -⟩
  · exact all_isBlank_iff.mpr hend
  · rw [readRows, hrest] at h
    simp [isBreak_eq_false_of_isCode hcode] at h

include hentry

/-- Rows read from a text are read from its lines, given a round for each of them. -/
theorem forall₂_of_readRows {fuel : Nat} {c : Cursor} {tokens : List Token}
    {done all : List (Row κ δ)} (h : readRows c tokens done fuel = .ok all)
    (hfuel : weight (codeLines (behind c.rest)) < fuel) :
    ∃ new, all = done.reverse ++ new ∧
      List.Forall₂ (RowReads item?) (codeLines (behind c.rest)) (new.map rowRules) := by
  induction fuel generalizing c tokens done with
  | zero => exact absurd hfuel (Nat.not_lt_zero _)
  | succ fuel ih =>
    have hblank := blank_of_readRows h
    have hlines := codeLines_skip hblank
    rw [readRows_of_blank hblank] at h
    cases hnumber : readNumeral .count c.skip.skipLines with
    | error stuck =>
      rw [hnumber] at h
      dsimp only at h
      split at h
      · next hempty =>
        rcases firstCode_skipLines c.skip with ⟨-, hnil⟩ | ⟨line, -, htrim, hne⟩
        · rw [← hlines, hnil]
          exact ⟨[], by simpa using (Except.ok.inj h).symm, .nil⟩
        · rw [htrim, List.isEmpty_iff.mp hempty] at hne
          exact absurd rfl hne
      · cases h
    | ok result =>
      obtain ⟨count, next⟩ := result
      obtain ⟨line, hline, hcount⟩ := exists_codeLines_of_readNumeral hnumber
      rw [hnumber] at h
      dsimp only at h
      cases hentries : (readEntries next [] fuel :
          Except Stuck (List (Entry κ δ) × Cursor × List Token)) with
      | error stuck =>
        rw [hentries] at h
        cases h
      | ok result =>
        obtain ⟨entries, past, tokens⟩ := result
        rw [hentries] at h
        obtain ⟨_, rfl, hread, hbehind⟩ := entries?_of_readEntries hentry hentries
        rw [← hlines, hline, weight_cons, ← hbehind] at hfuel
        obtain ⟨new, rfl, hnew⟩ := ih h (by omega)
        refine ⟨Row.ofEntries count entries past :: new, by simp, ?_⟩
        rw [← hlines, hline, ← hbehind]
        refine .cons ⟨front next.rest, front past.rest, hcount, ?_, ?_⟩ hnew
        · simpa [rowRules, Row.ofEntries] using hread
        · cases fuel with
          | zero => omega
          | succ fuel => exact blank_of_readRows h

/-- Rows that are in the lines of a text are read from it, given enough rounds. -/
theorem exists_readRows_eq_ok (fuel : Nat) {c : Cursor} (tokens : List Token)
    (done : List (Row κ δ)) {rows : List (Nat × List (κ × Rule κ δ))}
    (hblank : (front c.rest).all isBlank = true)
    (hrows : List.Forall₂ (RowReads item?) (codeLines (behind c.rest)) rows)
    (hfuel : weight (codeLines (behind c.rest)) < fuel) :
    ∃ new, readRows c tokens done fuel = .ok (done.reverse ++ new) ∧
      new.map rowRules = rows := by
  induction fuel generalizing c tokens done rows with
  | zero => exact absurd hfuel (Nat.not_lt_zero _)
  | succ fuel ih =>
    have hlines := codeLines_skip hblank
    rw [readRows_of_blank hblank]
    rw [← hlines] at hrows hfuel
    cases hcases : codeLines c.skip.rest with
    | nil =>
      rw [hcases] at hrows
      cases hrows
      rcases firstCode_skipLines c.skip with ⟨hrest, -⟩ | ⟨line, hline, -, -⟩
      · exact ⟨[], by simp [readNumeral, hrest], rfl⟩
      · rw [hcases] at hline
        cases hline
    | cons line more =>
      rw [hcases] at hrows hfuel
      obtain ⟨⟨n, es⟩, rows, ⟨rest, last, hcount, hread, hlast⟩, hmore, rfl⟩ :=
        List.forall₂_cons_left_iff.mp hrows
      obtain ⟨count, next, hnumber, rfl, rfl, rfl⟩ :=
        exists_readNumeral_eq_ok .count hcases hcount
      rw [weight_cons] at hfuel
      have hshort := length_lt_of_number? hcount
      obtain ⟨-, hlength⟩ := length_of_entries? hentry.shorter hread
      obtain ⟨entries, past, tokens, hentries, hes, rfl, hbehind⟩ :=
        exists_readEntries_eq_ok hentry fuel [] hread hlast (by omega)
      rw [← hbehind] at hmore hfuel
      obtain ⟨new, hnew, rfl⟩ :=
        ih tokens (Row.ofEntries count entries past :: done) hlast hmore (by omega)
      refine ⟨Row.ofEntries count entries past :: new, ?_, ?_⟩
      · rw [hnumber]
        dsimp only
        rw [hentries]
        simpa using hnew
      · simp [rowRules, Row.ofEntries, hes]

/-! ## Sheets -/

/-- What a sheet holds: the number of states, and the number and the rules of each row. -/
def SheetReads {ε : Type} (item? : Reader ε) (text : List Char)
    (sheet : Nat × List (Nat × List ε)) : Prop :=
  ∃ first more, codeLines text = first :: more ∧ countLine? first = some sheet.1 ∧
    List.Forall₂ (RowReads item?) more sheet.2

/-- The number of states of a sheet and its rows. -/
def sheetRules (sheet : Sheet κ δ) : Nat × List (Nat × List (κ × Rule κ δ)) :=
  (number sheet.count, sheet.rows.map rowRules)

omit hentry in
theorem countLine?_eq_some_iff {line : List Char} {n : Nat} :
    countLine? line = some n ↔
      ∃ rest, number? line = some (n, rest) ∧ rest.all isBlank = true := by
  simp only [countLine?, Option.bind_eq_bind, Option.bind_eq_some_iff, Prod.exists]
  constructor
  · rintro ⟨n', rest, hnumber, hrest⟩
    split at hrest
    · next hblank =>
      obtain rfl := Option.some.inj hrest
      exact ⟨rest, hnumber, hblank⟩
    · cases hrest
  · rintro ⟨rest, hnumber, hblank⟩
    exact ⟨n, rest, hnumber, if_pos hblank⟩

omit hentry in
theorem readSheet_eq_ok_iff {text : List Char} {sheet : Sheet κ δ} :
    readSheet text = .ok sheet ↔
      ∃ next, readNumeral .count (Cursor.start text).skipLines = .ok (sheet.count, next) ∧
        readRows next [] [] (text.length + 1) = .ok sheet.rows := by
  simp only [readSheet, bind_eq_ok_iff, Prod.exists, pure, Except.pure, Except.ok.injEq]
  constructor
  · rintro ⟨count, next, hcount, rows, hrows, rfl⟩
    exact ⟨next, hcount, hrows⟩
  · rintro ⟨next, hcount, hrows⟩
    exact ⟨sheet.count, next, hcount, sheet.rows, hrows, rfl⟩

/-- A text reads as a sheet exactly if its lines do. -/
theorem exists_readSheet_iff (text : List Char)
    (rows : Nat × List (Nat × List (κ × Rule κ δ))) :
    (∃ sheet, readSheet text = .ok sheet ∧ sheetRules sheet = rows) ↔
      SheetReads item? text rows := by
  have hweight := weight_codeLines_le text
  constructor
  · rintro ⟨sheet, hread, rfl⟩
    obtain ⟨next, hnumber, hrows⟩ := readSheet_eq_ok_iff.mp hread
    obtain ⟨line, hline, hcount⟩ := exists_codeLines_of_readNumeral hnumber
    rw [Cursor.start] at hline
    rw [hline, weight_cons] at hweight
    obtain ⟨_, rfl, hall⟩ := forall₂_of_readRows hentry hrows (by omega)
    refine ⟨line, codeLines (behind next.rest), hline, ?_, hall⟩
    exact countLine?_eq_some_iff.mpr ⟨front next.rest, hcount, blank_of_readRows hrows⟩
  · obtain ⟨states, rows⟩ := rows
    rintro ⟨first, more, hlines, hcount, hall⟩
    obtain ⟨rest, hnumber, hblank⟩ := countLine?_eq_some_iff.mp hcount
    rw [hlines, weight_cons] at hweight
    obtain ⟨count, next, hread, rfl, rfl, rfl⟩ :=
      exists_readNumeral_eq_ok .count (c := Cursor.start text) hlines hnumber
    obtain ⟨new, hnew, rfl⟩ :=
      exists_readRows_eq_ok hentry (text.length + 1) [] [] hblank hall (by omega)
    exact ⟨⟨count, new⟩, readSheet_eq_ok_iff.mpr ⟨next, hread, hnew⟩, rfl⟩

end Rows

end TapeReduction.Lines
