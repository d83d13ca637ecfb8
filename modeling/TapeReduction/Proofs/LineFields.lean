import Mathlib.Data.List.TakeWhile
import TapeReduction.Proofs.LineReading

/-!
# Fields read from a text and from a line

A reader at a place of a text agrees with a reader of fields if it reads the same
from the text as the other does from the code of the line, stays in that line, and
is stuck where it is at the end of the line.  Readers of single tokens agree, and
agreement passes to readers one after the other, so readers of entries agree.
-/

namespace TapeReduction.Lines

open Text (isBreak)
open Source

/-! ## Blanks and comments -/

theorem all_isBlank_iff {line : List Char} : line.all isBlank = true ↔ trim line = [] := by
  rw [List.all_eq_true]
  exact List.dropWhile_eq_nil_iff.symm

/-- A text without the comment it starts with, if it starts with one. -/
def passComment (text : List Char) : List Char :=
  match text with
  | [] => []
  | c :: rest => if c = '#' then fromBreak rest else c :: rest

/-- Skipping passes blanks, and a comment behind them. -/
theorem rest_skipBlanks (comment : Bool) (offset : Nat) (text : List Char) :
    (skipBlanks false comment offset text).rest =
      if comment then fromBreak text else passComment (trim text) := by
  induction text generalizing comment offset with
  | nil => cases comment <;> rfl
  | cons c rest ih =>
    by_cases hbreak : isBreak c = true
    · have hc : c = '\n' ∨ c = '\r' := by simpa [isBreak] using hbreak
      have hblank : isBlank c = false := by
        rcases hc with rfl | rfl
        · decide
        · decide
      have hhash : c ≠ '#' := by
        rintro rfl
        exact absurd hbreak (by decide)
      simp [skipBlanks, hbreak, fromBreak, trim, hblank, passComment, hhash]
    · cases comment with
      | true => simpa [skipBlanks, hbreak, fromBreak] using ih true (offset + 1)
      | false =>
        by_cases hblank : isBlank c = true
        · have hc : c = ' ' ∨ c = '\t' := by simpa [isBlank] using hblank
          simpa [skipBlanks, hbreak, hc, trim, hblank] using ih false (offset + 1)
        · have hc : ¬(c = ' ' ∨ c = '\t') := by simpa [isBlank] using hblank
          have htrim : trim (c :: rest) = c :: rest := by simp [trim, hblank]
          rw [htrim]
          by_cases hhash : c = '#'
          · subst hhash
            simpa [skipBlanks, hbreak, passComment] using ih true (offset + 1)
          · simp [skipBlanks, hbreak, hc, hhash, passComment]

/-- Behind the blanks at the front of a line is the end of the line or its next character. -/
theorem skip_cases (c : Cursor) :
    (trim (front c.rest) = [] ∧ c.skip.rest = fromBreak (behind c.rest)) ∨
    ∃ x rest, isCode x = true ∧ c.skip.rest = x :: rest ∧
      trim (front c.rest) = x :: front rest ∧ behind rest = behind c.rest := by
  have hfront : trim (front c.rest) = front (trim c.rest) :=
    dropWhile_front isCode_of_isBlank c.rest
  have hbehind : behind (trim c.rest) = behind c.rest :=
    behind_dropWhile isCode_of_isBlank c.rest
  have hskip : c.skip.rest = passComment (trim c.rest) :=
    rest_skipBlanks false c.offset c.rest
  rw [hfront, hskip, ← hbehind]
  cases trim c.rest with
  | nil => exact .inl ⟨rfl, rfl⟩
  | cons x rest =>
    by_cases hcode : isCode x = true
    · refine .inr ⟨x, rest, hcode, ?_, ?_, ?_⟩
      · simp [passComment, ne_hash_of_isCode hcode]
      · simp [front, hcode]
      · simp [behind, hcode]
    · refine .inl ⟨by simp [front, hcode], ?_⟩
      by_cases hhash : x = '#'
      · subst hhash
        rfl
      · have hbreak : isBreak x = true := by simpa [isCode, hhash] using hcode
        simp [passComment, behind, hcode, fromBreak, hbreak, hhash]

theorem front_skip (c : Cursor) : front c.skip.rest = trim (front c.rest) := by
  rcases skip_cases c with ⟨hend, hrest⟩ | ⟨x, rest, hcode, hrest, htrim, -⟩
  · rw [hend, hrest, front_fromBreak]
  · rw [htrim, hrest, front, List.takeWhile_cons_of_pos hcode]
    rfl

theorem behind_skip {c : Cursor} (h : trim (front c.rest) ≠ []) :
    behind c.skip.rest = behind c.rest := by
  rcases skip_cases c with ⟨hend, -⟩ | ⟨x, rest, hcode, hrest, -, hbehind⟩
  · exact absurd hend h
  · rw [hrest, ← hbehind, behind, List.dropWhile_cons_of_pos hcode]
    rfl

/-! ## Agreement -/

/-- What a reader at a place of a text has read, seen from the line it is in. -/
def outcome {α β : Type} (meaning : α → β) :
    Except Stuck (α × Cursor) → Option (β × List Char)
  | .ok (a, next) => some (meaning a, front next.rest)
  | .error _ => none

/-- Behind blanks, a reader of a text reads the same as a reader of the line.  At the end of
the line it is stuck right there, and otherwise it takes something from the line and stays
in it. -/
structure Agrees {α β : Type} (meaning : α → β) (read : Cursor → Except Stuck (α × Cursor))
    (field? : Reader β) : Prop where
  outcome_eq : ∀ c : Cursor, outcome meaning (read c.skip) = field? (front c.rest)
  behind_eq : ∀ {c : Cursor} {a : α} {next : Cursor}, read c.skip = .ok (a, next) →
    behind next.rest = behind c.rest
  stuck : ∀ {c : Cursor}, trim (front c.rest) = [] →
    ∃ tokens, read c.skip = .error ⟨c.skip.offset, tokens⟩
  shorter : ∀ {line : List Char} {b : β} {rest : List Char}, field? line = some (b, rest) →
    rest.length < line.length

namespace Agrees

variable {α β : Type} {meaning : α → β} {read : Cursor → Except Stuck (α × Cursor)}
  {field? : Reader β}

/-- What has been read from a text is read from the line. -/
theorem field?_eq (h : Agrees meaning read field?) {c next : Cursor} {a : α}
    (hread : read c.skip = .ok (a, next)) :
    field? (front c.rest) = some (meaning a, front next.rest) := by
  rw [← h.outcome_eq, hread]
  rfl

theorem field?_eq_none (h : Agrees meaning read field?) {c : Cursor} {stuck : Stuck}
    (hread : read c.skip = .error stuck) : field? (front c.rest) = none := by
  rw [← h.outcome_eq, hread]
  rfl

/-- What can be read from the line is read from the text. -/
theorem exists_read_eq (h : Agrees meaning read field?) {c : Cursor} {b : β}
    {rest : List Char} (hfield : field? (front c.rest) = some (b, rest)) :
    ∃ a next, read c.skip = .ok (a, next) ∧ meaning a = b ∧ front next.rest = rest := by
  rw [← h.outcome_eq] at hfield
  cases hread : read c.skip with
  | error stuck =>
    rw [hread] at hfield
    cases hfield
  | ok result =>
    obtain ⟨a, next⟩ := result
    rw [hread] at hfield
    obtain ⟨rfl, rfl⟩ := Prod.mk.inj (Option.some.inj hfield)
    exact ⟨a, next, rfl, rfl, rfl⟩

end Agrees

/-! ## Single tokens -/

theorem length_trim_le (line : List Char) : (trim line).length ≤ line.length :=
  (List.dropWhile_sublist _).length_le

/-- Every character that stands for something is code and no blank. -/
def Visible {α : Type} (ofChar? : Char → Option α) : Prop :=
  ∀ {c : Char} {a : α}, ofChar? c = some a → isCode c = true ∧ isBlank c = false

theorem visible_of_isNone {α : Type} {ofChar? : Char → Option α}
    (h : ['#', '\n', '\r', ' ', '\t'].all (fun c => (ofChar? c).isNone) = true) :
    Visible ofChar? := by
  intro c a hc
  have hmem : c ∉ ['#', '\n', '\r', ' ', '\t'] := by
    intro hmem
    have hnone := List.all_eq_true.mp h c hmem
    rw [hc] at hnone
    cases hnone
  simp only [List.mem_cons, List.not_mem_nil, or_false, not_or] at hmem
  obtain ⟨hhash, hfeed, hreturn, hspace, htab⟩ := hmem
  simp [isCode, isBreak, isBlank, hhash, hfeed, hreturn, hspace, htab]

/-- Readers of one character agree if a character stands for the same in both, and none that
ends a line stands for something. -/
theorem agrees_glyph {α : Type} (token : Token) {letters : List (Char × α)}
    {ofChar? : Char → Option α} (hletters : ∀ c, letters.lookup c = ofChar? c)
    (hvisible : Visible ofChar?) :
    Agrees id (readGlyph token ofChar?) (glyph? letters) := by
  have hstuck : ∀ {c : Cursor}, trim (front c.rest) = [] →
      readGlyph token ofChar? c.skip = .error ⟨c.skip.offset, [token]⟩ := by
    intro c hend
    have hfront : front c.skip.rest = [] := by rw [front_skip, hend]
    cases hrest : c.skip.rest with
    | nil => simp [readGlyph, hrest]
    | cons x rest =>
      have hnone : ofChar? x = none := by
        cases hx : ofChar? x with
        | none => rfl
        | some a =>
          rw [hrest, front, List.takeWhile_cons_of_pos (hvisible hx).1] at hfront
          cases hfront
      simp [readGlyph, hrest, hnone]
  constructor
  · intro c
    rcases skip_cases c with ⟨hend, -⟩ | ⟨x, rest, -, hrest, htrim, -⟩
    · rw [hstuck hend, glyph?, hend]
      rfl
    · simp only [glyph?, htrim, hletters]
      cases hx : ofChar? x with
      | none => simp [readGlyph, hrest, hx, outcome]
      | some a => simp [readGlyph, hrest, hx, outcome]
  · intro c a next hread
    rcases skip_cases c with ⟨hend, -⟩ | ⟨x, rest, -, hrest, -, hbehind⟩
    · rw [hstuck hend] at hread
      cases hread
    · cases hx : ofChar? x with
      | none => simp [readGlyph, hrest, hx] at hread
      | some b =>
        simp only [readGlyph, hrest, hx, Except.ok.injEq, Prod.mk.injEq] at hread
        rw [← hread.2]
        exact hbehind
  · intro c hend
    exact ⟨[token], hstuck hend⟩
  · intro line b rest hfield
    have htrim := length_trim_le line
    cases hline : trim line with
    | nil => simp [glyph?, hline] at hfield
    | cons x more =>
      rw [hline, List.length_cons] at htrim
      rw [glyph?, hline] at hfield
      obtain ⟨a, -, heq⟩ := Option.map_eq_some_iff.mp hfield
      rw [← (Prod.mk.inj heq).2]
      omega

/-- The value of a number, however large. -/
def number (n : Numeral) : Nat :=
  Nat.ofDigitChars 10 n.digits 0

/-- Where no blank is in front, a number is read from a text as from the line. -/
theorem outcome_readNumeral (token : Token) {c : Cursor} {line : List Char}
    (h : front c.rest = trim line) :
    outcome number (readNumeral token c) = number? line := by
  have htake : (front c.rest).takeWhile Char.isDigit = c.rest.takeWhile Char.isDigit :=
    takeWhile_front isCode_of_isDigit c.rest
  have hdrop : (front c.rest).dropWhile Char.isDigit = front (c.rest.dropWhile Char.isDigit) :=
    dropWhile_front isCode_of_isDigit c.rest
  rw [readNumeral, number?, ← h, htake, hdrop]
  cases c.rest.takeWhile Char.isDigit with
  | nil => rfl
  | cons d ds => rfl

theorem behind_of_readNumeral {token : Token} {c next : Cursor} {n : Numeral}
    (h : readNumeral token c = .ok (n, next)) :
    front c.rest ≠ [] ∧ behind next.rest = behind c.rest := by
  rw [readNumeral] at h
  cases htake : c.rest.takeWhile Char.isDigit with
  | nil => simp [htake] at h
  | cons d ds =>
    simp only [htake, Except.ok.injEq, Prod.mk.injEq] at h
    rw [← h.2]
    refine ⟨?_, behind_dropWhile isCode_of_isDigit c.rest⟩
    intro hfront
    have hnil := takeWhile_front isCode_of_isDigit c.rest
    rw [hfront, htake] at hnil
    cases hnil

theorem length_lt_of_number? {line rest : List Char} {n : Nat}
    (h : number? line = some (n, rest)) : rest.length < line.length := by
  have htrim := length_trim_le line
  have hsplit : (trim line).takeWhile Char.isDigit ++ (trim line).dropWhile Char.isDigit =
      trim line := List.takeWhile_append_dropWhile
  have hlength := congrArg List.length hsplit
  rw [number?] at h
  cases htake : (trim line).takeWhile Char.isDigit with
  | nil => simp [htake] at h
  | cons d ds =>
    simp only [htake, Option.some.injEq, Prod.mk.injEq] at h
    rw [htake, h.2, List.length_append, List.length_cons] at hlength
    omega

theorem agrees_numeral (token : Token) : Agrees number (readNumeral token) number? := by
  constructor
  · intro c
    exact outcome_readNumeral token (front_skip c)
  · intro c n next hread
    obtain ⟨hfront, hbehind⟩ := behind_of_readNumeral hread
    rw [front_skip] at hfront
    rw [hbehind, behind_skip hfront]
  · intro c hend
    refine ⟨[token], ?_⟩
    have htake : c.skip.rest.takeWhile Char.isDigit = [] := by
      rw [← takeWhile_front isCode_of_isDigit, front_skip, hend]
      rfl
    rw [readNumeral, htake]
  · intro line n rest hfield
    exact length_lt_of_number? hfield

/-! ## Readers one after the other -/

theorem bind_eq_ok_iff {ε α β : Type} {x : Except ε α} {f : α → Except ε β} {b : β} :
    (x >>= f) = .ok b ↔ ∃ a, x = .ok a ∧ f a = .ok b := by
  cases x with
  | error e => simp [bind, Except.bind]
  | ok a => simp [bind, Except.bind]

theorem bind_eq_error_iff {ε α β : Type} {x : Except ε α} {f : α → Except ε β} {e : ε} :
    (x >>= f) = .error e ↔ x = .error e ∨ ∃ a, x = .ok a ∧ f a = .error e := by
  cases x with
  | error e' => simp [bind, Except.bind]
  | ok a => simp [bind, Except.bind]

section Sequences

variable {α β γ δ : Type}

/-- Two readers of a text one after the other, with blanks between them. -/
def readBoth (read : Cursor → Except Stuck (α × Cursor))
    (read' : Cursor → Except Stuck (γ × Cursor)) (c : Cursor) :
    Except Stuck ((α × γ) × Cursor) := do
  let (a, c) ← read c
  let (b, c) ← read' c.skip
  return ((a, b), c)

variable {meaning : α → β} {meaning' : γ → δ}
  {read : Cursor → Except Stuck (α × Cursor)} {read' : Cursor → Except Stuck (γ × Cursor)}
  {field? : Reader β} {field'? : Reader δ}

theorem readBoth_eq_ok_iff {c last : Cursor} {a : α} {b : γ} :
    readBoth read read' c = .ok ((a, b), last) ↔
      ∃ next, read c = .ok (a, next) ∧ read' next.skip = .ok (b, last) := by
  simp only [readBoth, bind_eq_ok_iff, Prod.exists, pure, Except.pure, Except.ok.injEq,
    Prod.mk.injEq]
  constructor
  · rintro ⟨_, next, h, _, _, h', ⟨rfl, rfl⟩, rfl⟩
    exact ⟨next, h, h'⟩
  · rintro ⟨next, h, h'⟩
    exact ⟨a, next, h, b, last, h', ⟨rfl, rfl⟩, rfl⟩

theorem readBoth_eq_error_iff {c : Cursor} {stuck : Stuck} :
    readBoth read read' c = .error stuck ↔
      read c = .error stuck ∨
        ∃ a next, read c = .ok (a, next) ∧ read' next.skip = .error stuck := by
  simp only [readBoth, bind_eq_error_iff, Prod.exists, pure, Except.pure, reduceCtorEq, and_false,
    exists_false, or_false]

theorem both_eq_some_iff {line rest : List Char} {a : β} {b : δ} :
    both field? field'? line = some ((a, b), rest) ↔
      ∃ between, field? line = some (a, between) ∧ field'? between = some (b, rest) := by
  unfold both
  simp only [Option.bind_eq_bind, Option.bind_eq_some_iff, Prod.exists, Option.pure_def,
    Option.some.injEq, Prod.mk.injEq]
  constructor
  · rintro ⟨_, between, h, _, _, h', ⟨rfl, rfl⟩, rfl⟩
    exact ⟨between, h, h'⟩
  · rintro ⟨between, h, h'⟩
    exact ⟨a, between, h, b, rest, h', ⟨rfl, rfl⟩, rfl⟩

/-- Agreement passes to readers one after the other. -/
theorem Agrees.both (h : Agrees meaning read field?) (h' : Agrees meaning' read' field'?) :
    Agrees (Prod.map meaning meaning') (readBoth read read') (both field? field'?) := by
  constructor
  · intro c
    cases hread : read c.skip with
    | error stuck =>
      simp [readBoth, Lines.both, hread, h.field?_eq_none hread, outcome, bind, Except.bind]
    | ok result =>
      obtain ⟨a, next⟩ := result
      cases hread' : read' next.skip with
      | error stuck =>
        simp [readBoth, Lines.both, hread, h.field?_eq hread, hread', h'.field?_eq_none hread',
          outcome, bind, Except.bind]
      | ok result' =>
        obtain ⟨b, last⟩ := result'
        simp [readBoth, Lines.both, hread, h.field?_eq hread, hread', h'.field?_eq hread',
          outcome, bind, Except.bind, pure, Except.pure]
  · rintro c ⟨a, b⟩ last hread
    obtain ⟨next, ha, hb⟩ := readBoth_eq_ok_iff.mp hread
    rw [h'.behind_eq hb, h.behind_eq ha]
  · intro c hend
    obtain ⟨tokens, hread⟩ := h.stuck hend
    exact ⟨tokens, by simp [readBoth, hread, bind, Except.bind]⟩
  · rintro line ⟨a, b⟩ rest hfield
    obtain ⟨between, ha, hb⟩ := both_eq_some_iff.mp hfield
    exact Nat.lt_trans (h'.shorter hb) (h.shorter ha)

/-- Agreement passes to readers that give what was read another form. -/
theorem Agrees.map (h : Agrees meaning read field?) (f : α → γ) (g : β → δ)
    (hcomm : ∀ a, meaning' (f a) = g (meaning a)) :
    Agrees meaning' (fun c => (read c).map (Prod.map f id))
      (fun line => (field? line).map (Prod.map g id)) := by
  constructor
  · intro c
    cases hread : read c.skip with
    | error stuck => simp [h.field?_eq_none hread, outcome, Except.map]
    | ok result => simp [h.field?_eq hread, outcome, Except.map, hcomm]
  · intro c c' next hread
    cases hfirst : read c.skip with
    | error stuck => simp [hfirst, Except.map] at hread
    | ok result =>
      simp only [hfirst, Except.map, Except.ok.injEq] at hread
      rw [← (Prod.mk.inj hread).2]
      exact h.behind_eq hfirst
  · intro c hend
    obtain ⟨tokens, hread⟩ := h.stuck hend
    exact ⟨tokens, by simp [hread, Except.map]⟩
  · intro line d rest hfield
    obtain ⟨result, hresult, heq⟩ := Option.map_eq_some_iff.mp hfield
    rw [← (Prod.mk.inj heq).2]
    exact h.shorter hresult

end Sequences

/-! ## Symbols, moves and entries -/

theorem lookup_symbolLetters (c : Char) : symbolLetters.lookup c = Symbol.ofChar? c := by
  unfold Symbol.ofChar?
  split
  · rfl
  · rfl
  · rfl
  · simp_all [symbolLetters, List.lookup_eq_none_iff]

theorem lookup_cellLetters (c : Char) : cellLetters.lookup c = Cell.ofChar? c := by
  unfold Cell.ofChar? Symbol.ofChar?
  split
  · rfl
  · rfl
  · rfl
  · rfl
  · -- The other letters are those of the symbols.
    split
    · rfl
    · rfl
    · rfl
    · simp_all [cellLetters, List.lookup_eq_none_iff]

theorem lookup_moveLetters (c : Char) : moveLetters.lookup c = Move.ofChar? c := by
  unfold Move.ofChar?
  split
  · rfl
  · rfl
  · rfl
  · rfl
  · simp_all [moveLetters, List.lookup_eq_none_iff]

theorem visible_symbol : Visible Symbol.ofChar? :=
  visible_of_isNone rfl

theorem visible_cell : Visible Cell.ofChar? :=
  visible_of_isNone rfl

theorem visible_move : Visible Move.ofChar? :=
  visible_of_isNone rfl

theorem agrees_symbol :
    Agrees id (Legible.read : Cursor → Except Stuck (Symbol × Cursor)) (glyph? symbolLetters) :=
  agrees_glyph .plain lookup_symbolLetters visible_symbol

theorem agrees_cell :
    Agrees id (Legible.read : Cursor → Except Stuck (Cell × Cursor)) (glyph? cellLetters) :=
  agrees_glyph .symbol lookup_cellLetters visible_cell

theorem agrees_move :
    Agrees id (Legible.read : Cursor → Except Stuck (Move × Cursor)) (glyph? moveLetters) :=
  agrees_glyph .direction lookup_moveLetters visible_move

theorem Agrees.twice {α : Type} [Legible α] {field? : Reader α}
    (h : Agrees id (Legible.read : Cursor → Except Stuck (α × Cursor)) field?) :
    Agrees id (Legible.read : Cursor → Except Stuck ((α × α) × Cursor)) (twice field?) := by
  have hboth := h.both h
  rw [Prod.map_id] at hboth
  exact hboth

section Entries

variable {κ δ : Type}

/-- The rule an entry stands for, with its key. -/
def entryRule (entry : Entry κ δ) : κ × Rule κ δ :=
  (entry.key, ⟨number entry.target, entry.write, entry.move⟩)

/-- An entry is its four fields one after the other. -/
theorem keyedRule?_eq (key? : Reader κ) (move? : Reader δ) (line : List Char) :
    keyedRule? key? move? line =
      (both key? (both number? (both key? move?)) line).map
        (Prod.map (fun p => (p.1, ⟨p.2.1, p.2.2.1, p.2.2.2⟩)) id) := by
  unfold keyedRule? both
  cases key? line with
  | none => rfl
  | some key =>
    simp only [bind, Option.bind]
    cases number? key.2 with
    | none => rfl
    | some target =>
      dsimp only
      cases key? target.2 with
      | none => rfl
      | some write =>
        dsimp only
        cases move? write.2 with
        | none => rfl
        | some move => rfl

variable [Legible κ] [Legible δ]

theorem readEntry_eq (c : Cursor) :
    (readEntry c : Except Stuck (Entry κ δ × Cursor)) =
      (readBoth Legible.read (readBoth (readNumeral .index)
        (readBoth Legible.read Legible.read)) c).map
          (Prod.map (fun p => ⟨p.1, p.2.1, p.2.2.1, p.2.2.2⟩) id) := by
  unfold readEntry readBoth
  cases (Legible.read c : Except Stuck (κ × Cursor)) with
  | error stuck => rfl
  | ok key =>
    simp only [bind, Except.bind]
    cases readNumeral .index key.2.skip with
    | error stuck => rfl
    | ok target =>
      dsimp only
      cases (Legible.read target.2.skip : Except Stuck (κ × Cursor)) with
      | error stuck => rfl
      | ok write =>
        dsimp only
        cases (Legible.read write.2.skip : Except Stuck (δ × Cursor)) with
        | error stuck => rfl
        | ok move => rfl

/-- An entry is read from a text as from a line if its key and its move are. -/
theorem Agrees.entry {key? : Reader κ} {move? : Reader δ}
    (hkey : Agrees id (Legible.read : Cursor → Except Stuck (κ × Cursor)) key?)
    (hmove : Agrees id (Legible.read : Cursor → Except Stuck (δ × Cursor)) move?) :
    Agrees entryRule (readEntry : Cursor → Except Stuck (Entry κ δ × Cursor))
      (keyedRule? key? move?) := by
  have hfields := hkey.both ((agrees_numeral .index).both (hkey.both hmove))
  have hread := funext (readEntry_eq (κ := κ) (δ := δ))
  have hfield := funext (keyedRule?_eq key? move?)
  rw [hread, hfield]
  apply hfields.map
  intro fields
  rfl

end Entries

theorem agrees_oneTapeRule :
    Agrees entryRule (readEntry : Cursor → Except Stuck (Entry Cell Move × Cursor))
      oneTapeRule? :=
  agrees_cell.entry agrees_move

theorem agrees_twoTapeRule :
    Agrees entryRule
      (readEntry : Cursor → Except Stuck (Entry (Symbol × Symbol) (Move × Move) × Cursor))
      twoTapeRule? :=
  agrees_symbol.twice.entry agrees_move.twice

end TapeReduction.Lines
