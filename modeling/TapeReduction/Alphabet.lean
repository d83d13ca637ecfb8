/-!
# Tape alphabets

The symbols of an ordinary tape, the cells of a tape that carries two tapes at
once, and the moves of a head.  Each has a one-character text form and a list
of its members in ascending order.
-/

namespace TapeReduction

/-- A symbol of an ordinary tape. -/
inductive Symbol where
  | blank
  | zero
  | one
  deriving DecidableEq

/-- A cell of a tape that carries two tapes at once: a symbol, a symbol with a
head on it, or the boundary of a region. -/
inductive Cell where
  | plain (symbol : Symbol)
  | dotted (symbol : Symbol)
  | separator
  deriving DecidableEq

/-- The move a head makes after it has written.  There is no move that stays. -/
inductive Move where
  | left
  | right
  deriving DecidableEq

/-- A finite alphabet with its members in ascending order. -/
class Alphabet (κ : Type) where
  members : List κ
  mem_members : ∀ k, k ∈ members
  nodup_members : members.Nodup

/-- Values written as a fixed run of one-character tokens. -/
class Glyphs (α : Type) where
  glyphs : α → List Char

export Glyphs (glyphs)

namespace Symbol

/-- Every symbol, in ascending order. -/
def all : List Symbol :=
  [.blank, .zero, .one]

/-- The symbols an input may hold, in ascending order. -/
def inputs : List Symbol :=
  [.zero, .one]

/-- The character of a symbol. -/
def toChar : Symbol → Char
  | .blank => '_'
  | .zero => '0'
  | .one => '1'

/-- The symbol a character stands for. -/
def ofChar? : Char → Option Symbol
  | '_' => some .blank
  | '0' => some .zero
  | '1' => some .one
  | _ => none

@[simp]
theorem ofChar?_toChar (s : Symbol) : ofChar? s.toChar = some s := by
  cases s <;> rfl

instance : Alphabet Symbol where
  members := all
  mem_members s := by cases s <;> decide
  nodup_members := by decide

instance : Glyphs Symbol where
  glyphs s := [s.toChar]

end Symbol

namespace Cell

/-- The content of a cell nothing was written to. -/
abbrev blank : Cell :=
  .plain .blank

/-- The cells a region may hold, in ascending order: every symbol without a
head, then every symbol with one. -/
def inRegion : List Cell :=
  Symbol.all.map .plain ++ Symbol.all.map .dotted

/-- Every cell, in ascending order. -/
def all : List Cell :=
  inRegion ++ [.separator]

/-- The cell with a head put on it; a separator stays as it is. -/
def dot : Cell → Cell
  | .plain s => .dotted s
  | .dotted s => .dotted s
  | .separator => .separator

/-- The symbol in a cell of a region. -/
def symbol? : Cell → Option Symbol
  | .plain s => some s
  | .dotted s => some s
  | .separator => none

/-- Whether a head is on the cell. -/
def isDotted : Cell → Bool
  | .dotted _ => true
  | _ => false

/-- The character of a cell. -/
def toChar : Cell → Char
  | .plain s => s.toChar
  | .dotted .blank => '^'
  | .dotted .zero => 'O'
  | .dotted .one => 'I'
  | .separator => ':'

/-- The cell a character stands for. -/
def ofChar? : Char → Option Cell
  | '^' => some (.dotted .blank)
  | 'O' => some (.dotted .zero)
  | 'I' => some (.dotted .one)
  | ':' => some .separator
  | c => (Symbol.ofChar? c).map .plain

@[simp]
theorem ofChar?_toChar (c : Cell) : ofChar? c.toChar = some c := by
  rcases c with s | s | _
  · cases s <;> rfl
  · cases s <;> rfl
  · rfl

instance : Alphabet Cell where
  members := all
  mem_members c := by
    rcases c with s | s | _
    · cases s <;> decide
    · cases s <;> decide
    · decide
  nodup_members := by decide

instance : Glyphs Cell where
  glyphs c := [c.toChar]

/-- Cells written one character each. -/
def render (cells : List Cell) : String :=
  String.ofList (cells.map toChar)

end Cell

/-- Symbols written one character each. -/
def Symbol.render (symbols : List Symbol) : String :=
  String.ofList (symbols.map Symbol.toChar)

namespace Move

/-- The character of a move. -/
def toChar : Move → Char
  | .left => 'L'
  | .right => 'R'

/-- The move a character stands for, in either case. -/
def ofChar? : Char → Option Move
  | 'L' => some .left
  | 'l' => some .left
  | 'R' => some .right
  | 'r' => some .right
  | _ => none

@[simp]
theorem ofChar?_toChar (m : Move) : ofChar? m.toChar = some m := by
  cases m <;> rfl

instance : Glyphs Move where
  glyphs m := [m.toChar]

end Move

/-- Pairs are ordered by their first part, then by their second. -/
instance {α β : Type} [Alphabet α] [Alphabet β] : Alphabet (α × β) where
  members := Alphabet.members.flatMap fun a => Alphabet.members.map (Prod.mk a)
  mem_members := by
    rintro ⟨a, b⟩
    simp [Alphabet.mem_members]
  nodup_members := by
    rw [List.nodup_iff_pairwise_ne, List.pairwise_flatMap]
    refine ⟨fun a _ => ?_, ?_⟩
    · refine List.pairwise_map.mpr (List.Pairwise.imp ?_ Alphabet.nodup_members)
      intro b c hbc h
      exact hbc (Prod.mk.inj h).2
    · refine List.Pairwise.imp ?_ Alphabet.nodup_members
      rintro a b hab x hx y hy rfl
      obtain ⟨_, -, rfl⟩ := List.mem_map.mp hx
      obtain ⟨_, -, h⟩ := List.mem_map.mp hy
      exact hab (Prod.mk.inj h).1.symm

/-- The tokens of a pair are those of its first part, then those of its second. -/
instance {α β : Type} [Glyphs α] [Glyphs β] : Glyphs (α × β) where
  glyphs p := glyphs p.1 ++ glyphs p.2

/-- The tokens of a value without anything between them. -/
def label {α : Type} [Glyphs α] (a : α) : String :=
  String.ofList (glyphs a)

end TapeReduction
