import TapeReduction.Source.Reading

/-!
# Bundled machines

Two-tape machines that come with the library, as texts and as tables.
-/

namespace TapeReduction.Gallery

/-- Copies its input to the second tape and accepts. -/
def copyText : String :=
  "# Copies tape 1 onto tape 2, then accepts.\n" ++
  "2\n" ++
  "3 _ _ 1 _ _ L L 0 _ 0 0 0 R R 1 _ 0 1 1 R R\n"

/-- Accepts the inputs with an even number of ones. -/
def evenOnesText : String :=
  "# Accepts inputs with an even number of ones. State 1 tracks odd parity.\n" ++
  "3\n" ++
  "3 _ _ 2 _ _ L L 0 _ 0 0 _ R R 1 _ 1 1 _ R R\n" ++
  "2 0 _ 1 0 _ R R 1 _ 0 1 _ R R\n"

/-- Accepts the inputs that start with a one. -/
def leadingOneText : String :=
  "# Accepts inputs that start with a one.\n" ++
  "2\n" ++
  "1 1 _ 1 1 1 R R\n"

/-- Accepts the inputs that read the same backwards. -/
def palindromeText : String :=
  "# Accepts binary palindromes.\n" ++
  "#\n" ++
  "# 0: shift head 2 one cell right, so cell 0 of tape 2 stays blank\n" ++
  "# 1: copy tape 1 onto tape 2\n" ++
  "# 2: walk both heads left until head 2 finds the blank cell 0\n" ++
  "# 3: walk head 2 back to the last copied symbol while head 1 rests at 0\n" ++
  "# 4: compare tape 1 forwards against tape 2 backwards\n" ++
  "6\n" ++
  "3 _ _ 5 _ _ R R 0 _ 1 0 _ L R 1 _ 1 1 _ L R\n" ++
  "3 _ _ 2 _ _ L L 0 _ 1 0 0 R R 1 _ 1 1 1 R R\n" ++
  "6 0 _ 3 0 _ L R 1 _ 3 1 _ L R 0 0 2 0 0 L L 0 1 2 0 1 L L 1 0 2 1 0 L L 1 1 2 1 1 L L\n" ++
  "6 0 _ 4 0 _ L L 1 _ 4 1 _ L L 0 0 3 0 0 L R 0 1 3 0 1 L R 1 0 3 1 0 L R 1 1 3 1 1 L R\n" ++
  "3 _ _ 5 _ _ R R 0 0 4 0 0 R L 1 1 4 1 1 R L\n"

/-- The bundled machines by name. -/
def texts : List (String × String) :=
  [("copy", copyText), ("even-ones", evenOnesText), ("leading-one", leadingOneText),
    ("palindrome", palindromeText)]

/-- A bundled machine. -/
structure Exhibit where
  name : String
  text : String
  table : TwoTapeTable

/-- The bundled machines that can be read. -/
def exhibits : List Exhibit :=
  texts.filterMap fun entry =>
    match (Table.parse entry.2 : Except Fault TwoTapeTable) with
    | .ok table => some ⟨entry.1, entry.2, table⟩
    | .error _ => none

/-- The names of the bundled machines. -/
def names : List String :=
  exhibits.map Exhibit.name

/-- The bundled machine with a name. -/
def find (name : String) : Except Fault Exhibit :=
  match exhibits.find? fun exhibit => exhibit.name == name with
  | some exhibit => .ok exhibit
  | none => .error (.unsound (.unknownMachine name))

end TapeReduction.Gallery
