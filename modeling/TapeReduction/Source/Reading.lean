import TapeReduction.Source.Sheet
import TapeReduction.Table.Basic

/-!
# Reading tables

A text of at most `maxTableBytes` bytes that reads as a sheet makes a table if
its counts are right, its rows hold no key twice and the draft they make passes
its checks.  The first fault in that order is reported, and rows are looked at
one after the other.
-/

namespace TapeReduction.Source

variable {κ δ : Type}

/-- The value of a number, or what is wrong with it. -/
def Numeral.value (text : List Char) (issue : Issue) (n : Numeral) : Except Fault Nat :=
  match n.value? with
  | some value => .ok value
  | none => .error (.unreadable (Text.Excerpt.ofSpan text n.start n.stop) issue)

/-- The rule an entry stands for, with its key. -/
def Entry.rule (text : List Char) (entry : Entry κ δ) : Except Fault (κ × Rule κ δ) := do
  let target ← entry.target.value text .indexTooLarge
  return (entry.key, ⟨target, entry.write, entry.move⟩)

/-- The rules of a row, if there are as many as it declares. -/
def Row.rules (text : List Char) (state : Nat) (row : Row κ δ) :
    Except Fault (List (κ × Rule κ δ)) := do
  let declared ← row.count.value text .countTooLarge
  let rules ← row.entries.mapM (Entry.rule text)
  if rules.length = declared then
    return rules
  else
    throw (.unreadable (Text.Excerpt.ofSpan text row.count.start row.stop)
      (.entryCount state declared rules.length))

variable [DecidableEq κ] [Glyphs κ]

/-- The draft with the rules of a state added one after the other. -/
def addRules (state : Nat) (d : Draft κ δ) (rules : List (κ × Rule κ δ)) :
    Except Fault (Draft κ δ) :=
  rules.foldlM (fun d entry => d.add state entry.1 entry.2) d

/-- The draft with rows added from a state on. -/
def addRows (text : List Char) : Nat → Draft κ δ → List (Row κ δ) →
    Except Fault (Draft κ δ)
  | _, d, [] => .ok d
  | state, d, row :: rest => do
    let rules ← row.rules text state
    let d ← addRules state d rules
    addRows text (state + 1) d rest

variable [Alphabet κ]

/-- The table a sheet makes.  The last state accepts and has no row. -/
def Sheet.table (text : List Char) (sheet : Sheet κ δ) : Except Fault (Table κ δ) := do
  let states ← sheet.count.value text .countTooLarge
  if states = 0 then
    throw (.unsound .noStates)
  if sheet.rows.length ≠ states - 1 then
    throw (.unsound (.rowCount (states - 1) sheet.rows.length))
  let d ← addRows text 0 (Draft.ofSize states) sheet.rows
  d.build

end TapeReduction.Source

/-- The table a text stands for, or the first thing wrong with it. -/
def TapeReduction.Table.parse {κ δ : Type} [DecidableEq κ] [Alphabet κ] [Glyphs κ]
    [Source.Legible κ] [Source.Legible δ] (text : String) :
    Except Fault (Table κ δ) :=
  if maxTableBytes < text.utf8ByteSize then
    .error (.unsound (.oversize text.utf8ByteSize))
  else
    match Source.readSheet text.toList with
    | .error stuck =>
      .error (.unreadable (Text.Excerpt.atPoint text.toList stuck.offset)
        (.expected stuck.expected))
    | .ok sheet => Source.Sheet.table text.toList sheet
