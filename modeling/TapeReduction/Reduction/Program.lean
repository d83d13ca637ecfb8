import TapeReduction.Machine
import TapeReduction.Reduction.Role

/-!
# The program of a reduced machine

The rules of a reduced machine, with roles in place of states.  Most of them only
pass over a cell.  A dot is never on the way of a pass that does not look for it,
and a leaf is entered when the second head has been taken off its cell.
-/

namespace TapeReduction.Reduction

/-- A rule between roles. -/
structure Instruction where
  source : Role
  read : Cell
  target : Role
  write : Cell
  move : Move
  deriving DecidableEq

/-- Passes over a cell without changing it. -/
def pass (source : Role) (read : Cell) (target : Role) (move : Move) : Instruction :=
  ⟨source, read, target, read, move⟩

/-- The way back: left through the second region, then through the first, and from the
leading separator to `next`.  The head stays on the leading separator. -/
def rewind (second first next : Role) : List Instruction :=
  (Cell.inRegion.flatMap fun cell =>
    [pass second cell second .left, pass first cell first .left]) ++
  [pass second .separator first .left, pass first .separator next .left]

/-- What a carried symbol is written as. -/
def carried (symbol : Symbol) (first : Bool) : Cell :=
  if first then .dotted symbol else .plain symbol

/-- Lays out the tape: the leading separator, the input moved right by one cell, the end
of its region, and the region of an empty second tape. -/
def setup : List Instruction :=
  let role := Role.setup
  (Symbol.inputs.map fun s =>
    ⟨role .start, .plain s, role (.carry s true), .separator, .right⟩) ++
  [⟨role .start, .blank, role .emptyInput, .separator, .right⟩] ++
  (Symbol.inputs.flatMap fun s => [false, true].flatMap fun first =>
    (Symbol.inputs.map fun next =>
      ⟨role (.carry s first), .plain next, role (.carry next false), carried s first,
        .right⟩) ++
    [⟨role (.carry s first), .blank, role .closeFirst, carried s first, .right⟩]) ++
  [⟨role .emptyInput, .blank, role .closeFirst, .dotted .blank, .right⟩,
    ⟨role .closeFirst, .blank, role .openSecond, .separator, .right⟩,
    ⟨role .openSecond, .blank, role .closeSecond, .dotted .blank, .right⟩,
    ⟨role .closeSecond, .blank, role (.rewind .second), .separator, .left⟩] ++
  rewind (role (.rewind .second)) (role (.rewind .first)) (.block 0 .enter)

/-- Looks for both heads, remembering what the first one reads. -/
def seek (state : Nat) : List Instruction :=
  let role := Role.block state
  [pass (role .enter) .separator (role .seekFirst) .right] ++
  (Symbol.all.flatMap fun s =>
    [pass (role .seekFirst) (.plain s) (role .seekFirst) .right,
      pass (role .seekFirst) (.dotted s) (role (.crossFirst s)) .right]) ++
  (Symbol.all.flatMap fun a =>
    (Symbol.all.flatMap fun s =>
      [pass (role (.crossFirst a)) (.plain s) (role (.crossFirst a)) .right,
        pass (role (.seekSecond a)) (.plain s) (role (.seekSecond a)) .right]) ++
    [pass (role (.crossFirst a)) .separator (role (.seekSecond a)) .right])

/-- Puts a head on the cell it goes to, if that is in its region. -/
def putHead (probe next : Role) : List Instruction :=
  Symbol.all.map fun s => ⟨probe, .plain s, next, .dotted s, .left⟩

/-- Puts a head that would go left of its region back on the cell it was on. -/
def restoreHead (probe restore next : Role) (write : Symbol) : List Instruction :=
  [pass probe .separator restore .right, ⟨restore, .plain write, next, .dotted write, .left⟩]

/-- Puts the second head on the cell it goes to.  Left of its region it stays where it
was; right of it the region grows. -/
def moveSecond (role : LeafRole → Role) (write : Symbol) (move : Move) : List Instruction :=
  putHead (role .probeSecond) (role .returnSecond) ++
  match move with
  | .left => restoreHead (role .probeSecond) (role .restoreSecond) (role .returnSecond) write
  | .right =>
    [⟨role .probeSecond, .separator, role .extendSecond, .dotted .blank, .right⟩,
      ⟨role .extendSecond, .blank, role .returnSecond, .separator, .left⟩]

/-- Goes back to the first head and takes it off its cell. -/
def seekBack (role : LeafRole → Role) (read write : Symbol) (move : Move) :
    List Instruction :=
  (Cell.inRegion.map fun cell =>
    pass (role .returnSecond) cell (role .returnSecond) .left) ++
  [pass (role .returnSecond) .separator (role .returnFirst) .left] ++
  (Symbol.all.map fun s => pass (role .returnFirst) (.plain s) (role .returnFirst) .left) ++
  [⟨role .returnFirst, .dotted read, role .probeFirst, .plain write, move⟩]

/-- Makes room for one more cell of the first tape: the separator behind it and all of
the second region go one cell right. -/
def shiftSecond (role : LeafRole → Role) : List Instruction :=
  (Cell.inRegion.flatMap fun cell =>
    [⟨role .carrySeparator, cell, role (.carryCell cell), .separator, .right⟩] ++
    (Cell.inRegion.map fun next =>
      ⟨role (.carryCell cell), next, role (.carryCell next), cell, .right⟩) ++
    [⟨role (.carryCell cell), .separator, role .carryLast, cell, .right⟩]) ++
  [⟨role .carryLast, .blank, role (.rewind .second), .separator, .left⟩]

/-- Puts the first head on the cell it goes to. -/
def moveFirst (role : LeafRole → Role) (write : Symbol) (move : Move) : List Instruction :=
  putHead (role .probeFirst) (role (.rewind .first)) ++
  match move with
  | .left => restoreHead (role .probeFirst) (role .restoreFirst) (role (.rewind .first)) write
  | .right =>
    ⟨role .probeFirst, .separator, role .carrySeparator, .dotted .blank, .right⟩ ::
      shiftSecond role

/-- The leaf of a two-tape rule in the block of `state`; `next` is where it ends. -/
def leaf (state : Nat) (read : Symbol × Symbol) (rule : Rule (Symbol × Symbol) (Move × Move))
    (next : Role) : List Instruction :=
  let role := fun r => Role.block state (.leaf read r)
  [⟨.block state (.seekSecond read.1), .dotted read.2, role .probeSecond,
    .plain rule.write.2, rule.move.2⟩] ++
  moveSecond role rule.write.2 rule.move.2 ++
  seekBack role read.1 rule.write.1 rule.move.1 ++
  moveFirst role rule.write.1 rule.move.1 ++
  rewind (role (.rewind .second)) (role (.rewind .first)) next

/-- Where the leaf of a rule ends: the block of its target, or acceptance. -/
def destination (t : TwoTapeTable) (target : Nat) : Role :=
  if target = t.accepting then .accept else .block target .enter

/-- The block of a state. -/
def block (t : TwoTapeTable) (state : Nat) : List Instruction :=
  seek state ++ (t.rules state).flatMap fun entry =>
    leaf state entry.1 entry.2 (destination t entry.2.target)

/-- The whole program: laying out the tape, then a block for each state. -/
def program (t : TwoTapeTable) : List Instruction :=
  setup ++ (List.range t.size).flatMap (block t)

/-- The draft with the rule of an instruction added. -/
def addInstruction (states : Nat) (d : Draft Cell Move) (i : Instruction) :
    Except Fault (Draft Cell Move) :=
  d.add (i.source.index states) i.read ⟨i.target.index states, i.write, i.move⟩

end TapeReduction.Reduction

namespace TapeReduction

/-- The one-tape table that accepts, rejects or runs forever on the inputs on which the
two-tape table does. -/
def reduce (t : TwoTapeTable) : Except Fault OneTapeTable := do
  let d ← (Reduction.program t).foldlM (Reduction.addInstruction t.size)
    (Draft.ofSize (Reduction.size t.size))
  d.build

end TapeReduction
