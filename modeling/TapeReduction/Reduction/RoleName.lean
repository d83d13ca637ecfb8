import TapeReduction.Reduction.Role

/-!
# Names of roles

The role of a state in text, with the symbols it stands for by name.
-/

namespace TapeReduction

/-- The name of a symbol. -/
def Symbol.name : Symbol → String
  | .blank => "Blank"
  | .zero => "Zero"
  | .one => "One"

/-- A value behind its kind. -/
def applied (kind value : String) : String :=
  kind ++ "(" ++ value ++ ")"

/-- Named values behind their kind. -/
def record (kind : String) (fields : List (String × String)) : String :=
  kind ++ " \x7b " ++ ", ".intercalate (fields.map fun f => f.1 ++ ": " ++ f.2) ++ " \x7d"

/-- The name of a cell. -/
def Cell.name : Cell → String
  | .plain s => applied "Plain" s.name
  | .dotted s => applied "Dotted" s.name
  | .separator => "Separator"

namespace Reduction

/-- The name of a side. -/
def Side.name : Side → String
  | .first => "First"
  | .second => "Second"

/-- The name of a role in laying out the tape. -/
def SetupRole.name : SetupRole → String
  | .start => "Start"
  | .carry symbol first =>
    record "Carry" [("symbol", symbol.name), ("first", if first then "true" else "false")]
  | .emptyInput => "EmptyInput"
  | .closeFirst => "CloseFirst"
  | .openSecond => "OpenSecond"
  | .closeSecond => "CloseSecond"
  | .rewind side => applied "Rewind" side.name

/-- The name of a role in a leaf. -/
def LeafRole.name : LeafRole → String
  | .probeSecond => "ProbeSecond"
  | .restoreSecond => "RestoreSecond"
  | .extendSecond => "ExtendSecond"
  | .returnSecond => "ReturnSecond"
  | .returnFirst => "ReturnFirst"
  | .probeFirst => "ProbeFirst"
  | .restoreFirst => "RestoreFirst"
  | .carrySeparator => "CarrySeparator"
  | .carryCell cell => applied "CarryCell" cell.name
  | .carryLast => "CarryLast"
  | .rewind side => applied "Rewind" side.name

/-- The name of a role in a block. -/
def BlockRole.name : BlockRole → String
  | .enter => "Enter"
  | .seekFirst => "SeekFirst"
  | .crossFirst symbol => applied "CrossFirst" symbol.name
  | .seekSecond symbol => applied "SeekSecond" symbol.name
  | .leaf read role =>
    record "Leaf"
      [("read", "[" ++ read.1.name ++ ", " ++ read.2.name ++ "]"), ("step", role.name)]

/-- The name of a role. -/
def Role.name : Role → String
  | .setup role => applied "Setup" role.name
  | .block state role => record "Block" [("state", toString state), ("step", role.name)]
  | .accept => "Accept"

end Reduction

end TapeReduction
