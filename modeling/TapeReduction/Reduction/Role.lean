import TapeReduction.Alphabet

/-!
# Roles of the states of a reduced machine

A one-tape machine that does the work of a two-tape machine first lays the two
tapes on its own.  Then it makes one step of the two-tape machine after the
other, each in the block of the state that machine is in: it looks for both
heads, and what they read picks one of nine leaves, which moves the second
head, then the first, and goes back to the start of the tape.

Every state of the reduced machine is named by its role in this work, and the
roles are numbered.
-/

namespace TapeReduction.Reduction

/-- One of the two tapes, or its region. -/
inductive Side where
  | first
  | second
  deriving DecidableEq

/-- Roles in laying out the tape. -/
inductive SetupRole where
  /-- On the first cell of the input, which becomes the leading separator. -/
  | start
  /-- Moving the input right by one cell: `symbol` was there before.  The first
  symbol is written with a head on it. -/
  | carry (symbol : Symbol) (first : Bool)
  /-- The input is empty: its tape becomes one blank with a head. -/
  | emptyInput
  | closeFirst
  | openSecond
  | closeSecond
  /-- On the way back to the leading separator. -/
  | rewind (side : Side)
  deriving DecidableEq

/-- Roles in a leaf. -/
inductive LeafRole where
  /-- On the cell the second head goes to. -/
  | probeSecond
  /-- The second head stays on the first cell of its tape. -/
  | restoreSecond
  /-- The second tape grows by a cell. -/
  | extendSecond
  /-- On the way left through the second tape. -/
  | returnSecond
  /-- On the way left to the first head. -/
  | returnFirst
  /-- On the cell the first head goes to. -/
  | probeFirst
  /-- The first head stays on the first cell of its tape. -/
  | restoreFirst
  /-- The first tape grows by a cell: the separator behind it goes one cell right. -/
  | carrySeparator
  /-- A cell of the second tape goes one cell right. -/
  | carryCell (cell : Cell)
  /-- The last separator goes one cell right. -/
  | carryLast
  /-- On the way back to the leading separator. -/
  | rewind (side : Side)
  deriving DecidableEq

/-- Roles in the block of a state. -/
inductive BlockRole where
  /-- On the leading separator. -/
  | enter
  /-- Looking for the first head. -/
  | seekFirst
  /-- The first head reads `symbol`; on the way to the second tape. -/
  | crossFirst (symbol : Symbol)
  /-- The first head reads `symbol`; looking for the second head. -/
  | seekSecond (symbol : Symbol)
  /-- The heads read `read`. -/
  | leaf (read : Symbol × Symbol) (role : LeafRole)
  deriving DecidableEq

/-- The role of a state of a reduced machine. -/
inductive Role where
  | setup (role : SetupRole)
  | block (state : Nat) (role : BlockRole)
  | accept
  deriving DecidableEq

/-! ## Numbers of states -/

/-- The number of roles in laying out the tape: the start, carrying each input symbol
as the first one or not, the empty input, three cells to write, two ways back. -/
def setupSize : Nat :=
  1 + 2 * Symbol.inputs.length + 1 + 3 + 2

/-- The number of roles in a block before its leaves. -/
def seekSize : Nat :=
  2 + 2 * Symbol.all.length

/-- The number of leaves of a block. -/
def leafCount : Nat :=
  Symbol.all.length * Symbol.all.length

/-- The number of states of a leaf: two that move the second head, two ways back, those
that move the first head (one, the separator, each cell, the last separator), two
ways back. -/
def leafSize : Nat :=
  2 + 2 + (1 + 1 + Cell.inRegion.length + 1) + 2

/-- The number of states of a block. -/
def blockSize : Nat :=
  seekSize + leafCount * leafSize

/-! ## Numbering -/

/-- The number of a symbol, in ascending order. -/
def symbolIndex : Symbol → Nat
  | .blank => 0
  | .zero => 1
  | .one => 2

/-- The number of an input symbol, in ascending order.  A blank, which is never
carried, counts as the first. -/
def inputIndex : Symbol → Nat
  | .blank => 0
  | .zero => 0
  | .one => 1

/-- The number of a cell, in ascending order. -/
def cellIndex : Cell → Nat
  | .plain s => symbolIndex s
  | .dotted s => 3 + symbolIndex s
  | .separator => 6

/-- The second region is walked through before the first. -/
def Side.offset : Side → Nat
  | .second => 0
  | .first => 1

/-- The number of a role in laying out the tape. -/
def SetupRole.offset : SetupRole → Nat
  | .start => 0
  | .carry symbol first => 1 + 2 * inputIndex symbol + first.toNat
  | .emptyInput => 5
  | .closeFirst => 6
  | .openSecond => 7
  | .closeSecond => 8
  | .rewind side => 9 + side.offset

/-- The number of a role in a leaf.  A leaf moves each head one way only, so the roles
of the two ways share their numbers. -/
def LeafRole.offset : LeafRole → Nat
  | .probeSecond => 0
  | .restoreSecond => 1
  | .extendSecond => 1
  | .returnSecond => 2
  | .returnFirst => 3
  | .probeFirst => 4
  | .restoreFirst => 5
  | .carrySeparator => 5
  | .carryCell cell => 6 + cellIndex cell
  | .carryLast => 12
  | .rewind side => 13 + side.offset

/-- The number of the leaf for what the heads read. -/
def leafIndex (read : Symbol × Symbol) : Nat :=
  symbolIndex read.1 * Symbol.all.length + symbolIndex read.2

/-- The number of a role in a block. -/
def BlockRole.offset : BlockRole → Nat
  | .enter => 0
  | .seekFirst => 1
  | .crossFirst symbol => 2 + symbolIndex symbol
  | .seekSecond symbol => 5 + symbolIndex symbol
  | .leaf read role => seekSize + leafIndex read * leafSize + role.offset

/-- The number of states of the machine reduced from one with `states` states. -/
def size (states : Nat) : Nat :=
  setupSize + states * blockSize + 1

/-- The first state of the block of `state`. -/
def entry (state : Nat) : Nat :=
  setupSize + state * blockSize

/-- The accepting state of the machine reduced from one with `states` states. -/
def accepting (states : Nat) : Nat :=
  size states - 1

/-- The state with a role. -/
def Role.index (states : Nat) : Role → Nat
  | .setup role => role.offset
  | .block state role => entry state + role.offset
  | .accept => accepting states

/-! ## Roles in order -/

/-- A role for each state that lays out the tape. -/
def setupRoles : List SetupRole :=
  .start :: (Symbol.inputs.flatMap fun s => [.carry s false, .carry s true]) ++
    [.emptyInput, .closeFirst, .openSecond, .closeSecond, .rewind .second, .rewind .first]

/-- A role for each state of a leaf.  Where two roles share a state, it is the one of
the head that moves right. -/
def leafRoles : List LeafRole :=
  [.probeSecond, .extendSecond, .returnSecond, .returnFirst, .probeFirst, .carrySeparator] ++
    Cell.inRegion.map .carryCell ++ [.carryLast, .rewind .second, .rewind .first]

/-- A role for each state of a block. -/
def blockRoles : List BlockRole :=
  [.enter, .seekFirst] ++ Symbol.all.map .crossFirst ++ Symbol.all.map .seekSecond ++
    Alphabet.members.flatMap fun read => leafRoles.map (.leaf read)

/-- A role for each state, in ascending order. -/
def roles (states : Nat) : List Role :=
  setupRoles.map .setup ++
    ((List.range states).flatMap fun state => blockRoles.map (.block state)) ++ [.accept]

end TapeReduction.Reduction
