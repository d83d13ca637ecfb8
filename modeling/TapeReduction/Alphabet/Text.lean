import TapeReduction.Alphabet
import TapeReduction.Fault

/-!
# Reading characters

Characters read as symbols, cells and moves, refusing the first one that stands
for nothing.
-/

namespace TapeReduction

/-- The symbol a character stands for. -/
def Symbol.ofChar (c : Char) : Except Fault Symbol :=
  match Symbol.ofChar? c with
  | some s => .ok s
  | none => .error (.unknownSymbol c)

/-- The cell a character stands for. -/
def Cell.ofChar (c : Char) : Except Fault Cell :=
  match Cell.ofChar? c with
  | some cell => .ok cell
  | none => .error (.unknownSymbol c)

/-- The move a character stands for. -/
def Move.ofChar (c : Char) : Except Fault Move :=
  match Move.ofChar? c with
  | some m => .ok m
  | none => .error (.unknownMove c)

/-- The symbols a text stands for, one character each. -/
def Symbol.ofText (text : String) : Except Fault (List Symbol) :=
  text.toList.mapM Symbol.ofChar

/-- The cells a text stands for, one character each. -/
def Cell.ofText (text : String) : Except Fault (List Cell) :=
  text.toList.mapM Cell.ofChar

end TapeReduction
