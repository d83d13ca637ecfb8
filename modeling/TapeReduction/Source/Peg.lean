import TapeReduction.Source.Cursor

/-!
# Parsing expressions

A grammar is an expression that is tried at a place of a text.  It fails there, or
it takes some characters and gives a node for each of its named rules that took
part.  Choices are ordered: the second is tried only where the first fails.  A
repetition takes as much as it can and never gives anything back.

Between the parts of a rule, and between the rounds of a repetition, blanks and
comments may stand.  They are skipped wherever the next part is tried; a repetition
does not keep those that no further round follows.
-/

namespace TapeReduction.Source

/-- A named rule of the grammar of tables. -/
inductive Kind where
  | token (token : Token)
  | entry
  | row
  | table
  deriving DecidableEq

/-- What a named rule has taken: the places where it starts and stops, the characters
between them, and the nodes of the rules it is made of. -/
inductive Node where
  | mk (kind : Kind) (start stop : Nat) (text : List Char) (children : List Node)

namespace Node

def kind : Node → Kind
  | mk kind _ _ _ _ => kind

def start : Node → Nat
  | mk _ start _ _ _ => start

def stop : Node → Nat
  | mk _ _ stop _ _ => stop

def text : Node → List Char
  | mk _ _ _ text _ => text

def children : Node → List Node
  | mk _ _ _ _ children => children

end Node

/-- A parsing expression. -/
inductive Peg where
  | empty
  /-- The start of the text. -/
  | atStart
  /-- One character of a class. -/
  | char (accepts : Char → Bool)
  | seq (first second : Peg)
  | alt (first second : Peg)
  | star (body : Peg)
  /-- Takes nothing, where the body fails. -/
  | never (body : Peg)
  | rule (kind : Kind) (body : Peg)

namespace Peg

/-- What an expression comes to at a place: nothing if it fails, otherwise the nodes of its
rules and the place behind what it has taken. -/
inductive Yields : Peg → Cursor → Option (List Node × Cursor) → Prop
  | empty {c : Cursor} : Yields empty c (some ([], c))
  | atStart_ok {c : Cursor} : c.offset = 0 → Yields atStart c (some ([], c))
  | atStart_fail {c : Cursor} : c.offset ≠ 0 → Yields atStart c none
  | char_ok {accepts : Char → Bool} {offset : Nat} {x : Char} {rest : List Char} :
    accepts x = true → Yields (char accepts) ⟨offset, x :: rest⟩ (some ([], ⟨offset + 1, rest⟩))
  | char_fail {accepts : Char → Bool} {offset : Nat} {x : Char} {rest : List Char} :
    accepts x = false → Yields (char accepts) ⟨offset, x :: rest⟩ none
  | char_end {accepts : Char → Bool} {offset : Nat} : Yields (char accepts) ⟨offset, []⟩ none
  | seq_ok {e f : Peg} {c next last : Cursor} {nodes more : List Node} :
    Yields e c (some (nodes, next)) → Yields f next (some (more, last)) →
    Yields (seq e f) c (some (nodes ++ more, last))
  | seq_fail_left {e f : Peg} {c : Cursor} : Yields e c none → Yields (seq e f) c none
  | seq_fail_right {e f : Peg} {c next : Cursor} {nodes : List Node} :
    Yields e c (some (nodes, next)) → Yields f next none → Yields (seq e f) c none
  | alt_left {e f : Peg} {c next : Cursor} {nodes : List Node} :
    Yields e c (some (nodes, next)) → Yields (alt e f) c (some (nodes, next))
  | alt_right {e f : Peg} {c : Cursor} {result : Option (List Node × Cursor)} :
    Yields e c none → Yields f c result → Yields (alt e f) c result
  | star_stop {e : Peg} {c : Cursor} : Yields e c none → Yields (star e) c (some ([], c))
  | star_more {e : Peg} {c next last : Cursor} {nodes more : List Node} :
    Yields e c (some (nodes, next)) → Yields (star e) next (some (more, last)) →
    Yields (star e) c (some (nodes ++ more, last))
  | never_ok {e : Peg} {c : Cursor} : Yields e c none → Yields (never e) c (some ([], c))
  | never_fail {e : Peg} {c next : Cursor} {nodes : List Node} :
    Yields e c (some (nodes, next)) → Yields (never e) c none
  | rule_ok {kind : Kind} {e : Peg} {c next : Cursor} {nodes : List Node} :
    Yields e c (some (nodes, next)) →
    Yields (rule kind e) c (some ([.mk kind c.offset next.offset
      (c.rest.take (next.offset - c.offset)) nodes], next))
  | rule_fail {kind : Kind} {e : Peg} {c : Cursor} : Yields e c none → Yields (rule kind e) c none

/-- Any character. -/
def any : Peg :=
  char fun _ => true

/-- One given character. -/
def only (x : Char) : Peg :=
  char fun c => c = x

/-- An expression that need not be there. -/
def optional (e : Peg) : Peg :=
  alt e empty

/-- The end of a line: a line feed, a carriage return, or both. -/
def newline : Peg :=
  alt (only '\n') (alt (seq (only '\r') (only '\n')) (only '\r'))

/-- A space or a tab. -/
def blank : Peg :=
  alt (only ' ') (only '\t')

/-- What is ahead in the line. -/
def restOfLine : Peg :=
  star (seq (never newline) any)

/-- A `#` and the rest of the line. -/
def comment : Peg :=
  seq (only '#') restOfLine

/-- Blanks and comments. -/
def blanks : Peg :=
  seq (star blank) (star (seq comment (star blank)))

/-- One expression and then another, with blanks and comments between them. -/
def followedBy (e f : Peg) : Peg :=
  seq e (seq blanks f)

/-- An expression any number of times, with blanks and comments between the rounds. -/
def many (e : Peg) : Peg :=
  optional (seq e (star (seq blanks e)))

end Peg

end TapeReduction.Source
