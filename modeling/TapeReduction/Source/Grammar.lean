import TapeReduction.Source.Peg
import TapeReduction.Source.Reading

/-!
# The grammar of tables

The text of a table is a count, then rows on lines of their own, each a count and
entries.  Line breaks may stand before the count and behind the last row, and more
than one of them between rows.

The nodes of a text that matches are turned into a table part by part.  Each part
looks at the nodes it needs and refuses what it cannot use: a rule that ends too
early, a token without characters, a character that stands for nothing, a number
that is too large.  It does not rely on the grammar to have ruled these out.
-/

namespace TapeReduction.Source

open Text (Excerpt wordOfDigits)

/-! ## Nodes -/

/-- The machine word a text stands for: digits, with or without a plus sign in front. -/
def wordOfText? (text : List Char) : Option Nat :=
  let digits :=
    match text with
    | '+' :: rest => rest
    | _ => text
  if digits ≠ [] ∧ digits.all Char.isDigit = true then wordOfDigits 0 digits else none

namespace Node

/-- The stretch of the text that a node has taken. -/
def excerpt (text : List Char) (node : Node) : Excerpt :=
  .ofSpan text node.start node.stop

/-- The number a node stands for, or what is wrong with it. -/
def word (text : List Char) (issue : Issue) (node : Node) : Except Fault Nat :=
  match wordOfText? node.text with
  | some value => .ok value
  | none => .error (.unreadable (node.excerpt text) issue)

/-- The first character of a node. -/
def char (text : List Char) (node : Node) : Except Fault Char :=
  match node.text with
  | [] => .error (.unreadable (node.excerpt text) .emptyToken)
  | c :: _ => .ok c

/-- The first of the nodes that are left of a rule, and the others. -/
def next (text : List Char) (parent : Node) : List Node → Except Fault (Node × List Node)
  | [] => .error (.unreadable (parent.excerpt text) .endOfRule)
  | node :: rest => .ok (node, rest)

/-- What the first character of the next node stands for. -/
def glyph {α : Type} (ofChar : Char → Except Fault α) (text : List Char) (parent : Node)
    (nodes : List Node) : Except Fault (α × List Node) := do
  let (node, rest) ← next text parent nodes
  let c ← node.char text
  let a ← ofChar c
  return (a, rest)

end Node

/-! ## Tokens -/

/-- A token of one of some characters. -/
def Peg.oneOf (token : Token) (chars : List Char) : Peg :=
  rule (.token token) (char fun c => chars.contains c)

/-- A token of digits. -/
def Peg.numeral (token : Token) : Peg :=
  rule (.token token) (seq (char Char.isDigit) (star (char Char.isDigit)))

/-- The end of the text, as a token. -/
def Peg.endOfInput : Peg :=
  rule (.token .endOfInput) (never any)

/-- Values that are spelled as a run of one-character tokens: how they are spelled, and how
they are taken from the nodes that are left of a rule. -/
class Spelled (α : Type) where
  grammar : Peg
  ofNodes : List Char → Node → List Node → Except Fault (α × List Node)

instance : Spelled Symbol where
  grammar := .oneOf .plain ['_', '0', '1']
  ofNodes := Node.glyph Symbol.ofChar

instance : Spelled Cell where
  grammar := .oneOf .symbol ['_', '0', '1', '^', 'O', 'I', ':']
  ofNodes := Node.glyph Cell.ofChar

instance : Spelled Move where
  grammar := .oneOf .direction ['L', 'R', 'l', 'r']
  ofNodes := Node.glyph Move.ofChar

/-- A pair is spelled part by part. -/
instance {α β : Type} [Spelled α] [Spelled β] : Spelled (α × β) where
  grammar := (Spelled.grammar α).followedBy (Spelled.grammar β)
  ofNodes text parent nodes := do
    let (a, nodes) ← Spelled.ofNodes text parent nodes
    let (b, nodes) ← Spelled.ofNodes text parent nodes
    return ((a, b), nodes)

/-! ## Rules -/

section Rules

variable (κ δ : Type) [Spelled κ] [Spelled δ]

/-- A key, a target, what is written and how the heads move. -/
def Peg.entry : Peg :=
  rule .entry ((Spelled.grammar κ).followedBy ((numeral .index).followedBy
    ((Spelled.grammar κ).followedBy (Spelled.grammar δ))))

/-- A count and entries. -/
def Peg.row : Peg :=
  rule .row ((numeral .count).followedBy (many (entry κ δ)))

/-- A line break or more. -/
def Peg.newlines : Peg :=
  newline.followedBy (many newline)

/-- A count and rows, each behind line breaks, and the end of the text. -/
def Peg.table : Peg :=
  rule .table (atStart.followedBy ((many newline).followedBy ((numeral .count).followedBy
    ((many (newlines.followedBy (row κ δ))).followedBy ((many newline).followedBy
      endOfInput)))))

end Rules

/-! ## From nodes to tables -/

section Tables

variable {κ δ : Type} [Spelled κ] [Spelled δ]

/-- The rule an entry stands for, with its key. -/
def Node.rule (text : List Char) (node : Node) : Except Fault (κ × Rule κ δ) := do
  let (key, nodes) ← Spelled.ofNodes text node node.children
  let (target, nodes) ← Node.next text node nodes
  let target ← target.word text .indexTooLarge
  let (write, nodes) ← Spelled.ofNodes text node nodes
  let (move, _) ← Spelled.ofNodes text node nodes
  return (key, ⟨target, write, move⟩)

/-- The rules of a row, if there are as many as it declares. -/
def Node.rules (text : List Char) (state : Nat) (node : Node) :
    Except Fault (List (κ × Rule κ δ)) := do
  let (count, nodes) ← Node.next text node node.children
  let declared ← count.word text .countTooLarge
  let rules ← (nodes.filter fun child => child.kind = .entry).mapM (Node.rule text)
  if rules.length = declared then
    return rules
  else
    throw (.unreadable (node.excerpt text) (.entryCount state declared rules.length))

variable [DecidableEq κ] [Glyphs κ]

/-- The draft with the rows of nodes added from a state on. -/
def addRowNodes (text : List Char) : Nat → Draft κ δ → List Node → Except Fault (Draft κ δ)
  | _, d, [] => .ok d
  | state, d, row :: rest => do
    let rules ← row.rules text state
    let d ← addRules state d rules
    addRowNodes text (state + 1) d rest

variable [Alphabet κ]

/-- The table a node makes.  The last state accepts and has no row. -/
def Node.table (text : List Char) (node : Node) : Except Fault (Table κ δ) := do
  let (count, nodes) ← Node.next text node node.children
  let states ← count.word text .countTooLarge
  let rows := nodes.filter fun child => child.kind = .row
  if states = 0 then
    throw (.unsound .noStates)
  if rows.length ≠ states - 1 then
    throw (.unsound (.rowCount (states - 1) rows.length))
  let d ← addRowNodes text 0 (Draft.ofSize states) rows
  d.build

/-- The table the first of some nodes makes. -/
def tableOfNodes (text : List Char) : List Node → Except Fault (Table κ δ)
  | [] => .error (.unsound .emptyDefinition)
  | root :: _ => root.table text

end Tables

end TapeReduction.Source
