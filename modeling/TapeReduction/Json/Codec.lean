import TapeReduction.Encoding
import TapeReduction.Equivalence.Check
import TapeReduction.Json.Reader
import TapeReduction.Json.Shape
import TapeReduction.Machine
import TapeReduction.Reduction.RoleName

/-!
# The values of this library in JSON

For each kind of value, how it is written as JSON and which JSON is read as it.
-/

namespace TapeReduction

namespace Symbol

/-- A symbol by its name. -/
def toJson (s : Symbol) : Json :=
  .ofText s.name

/-- The symbol with a name. -/
def ofJson? (value : Json) : Option Symbol := do
  let name ← value.bareKind?
  all.find? fun s => s.name == name

end Symbol

namespace Cell

/-- A cell by its kind and symbol. -/
def toJson : Cell → Json
  | .plain s => .record [("Plain", s.toJson)]
  | .dotted s => .record [("Dotted", s.toJson)]
  | .separator => .ofText "Separator"

/-- The cell of a kind. -/
def ofJson? (value : Json) : Option Cell :=
  match value.kind? with
  | some ("Plain", some s) => (Symbol.ofJson? s).map .plain
  | some ("Dotted", some s) => (Symbol.ofJson? s).map .dotted
  | _ => if value.bareKind? = some "Separator" then some .separator else none

end Cell

namespace Move

/-- The name of a move. -/
def name : Move → String
  | .left => "Left"
  | .right => "Right"

/-- A move by its name. -/
def toJson (m : Move) : Json :=
  .ofText m.name

/-- The move with a name. -/
def ofJson? (value : Json) : Option Move :=
  match value.bareKind? with
  | some "Left" => some .left
  | some "Right" => some .right
  | _ => none

end Move

/-- How the parts of a rule appear in JSON. -/
class RuleShape (κ δ : Type) where
  writeJson : κ → Json
  write? : Json → Option κ
  moveField : String
  moveJson : δ → Json
  move? : Json → Option δ

instance : RuleShape Cell Move where
  writeJson := Cell.toJson
  write? := Cell.ofJson?
  moveField := "direction"
  moveJson := Move.toJson
  move? := Move.ofJson?

instance : RuleShape (Symbol × Symbol) (Move × Move) where
  writeJson := Json.ofPair Symbol.toJson
  write? := Json.pair? Symbol.ofJson?
  moveField := "directions"
  moveJson := Json.ofPair Move.toJson
  move? := Json.pair? Move.ofJson?

namespace Rule

variable {κ δ : Type} [RuleShape κ δ]

/-- A rule as a record. -/
def toJson (rule : Rule κ δ) : Json :=
  .record [("target", .ofNat rule.target), ("write", RuleShape.writeJson δ rule.write),
    (RuleShape.moveField κ δ, RuleShape.moveJson κ rule.move)]

/-- The rule of a record. -/
def ofJson? (value : Json) : Option (Rule κ δ) := do
  match ← value.allFields? ["target", "write", RuleShape.moveField κ δ] with
  | [target, write, move] =>
    return ⟨← target.natural?, ← RuleShape.write? δ write, ← RuleShape.move? κ move⟩
  | _ => none

end Rule

namespace Trace

/-- How a run ended, by name. -/
def verdictToJson : Option Verdict → Json
  | some (.accept state) => .record [("Accept", .ofNat state)]
  | some .reject => .ofText "Reject"
  | none => .ofText "Undetermined"

/-- How a run with this name ended. -/
def verdictOfJson? (value : Json) : Option (Option Verdict) :=
  match value.kind? with
  | some ("Accept", some state) => state.natural?.map fun state => some (.accept state)
  | _ =>
    match value.bareKind? with
    | some "Reject" => some (some .reject)
    | some "Undetermined" => some none
    | _ => none

/-- A trace as a record. -/
def toJson (t : Trace) : Json :=
  .record [("states", .ofList .ofNat t.states), ("outcome", verdictToJson t.verdict)]

/-- The trace of a record. -/
def ofJson? (value : Json) : Option Trace := do
  match ← value.allFields? ["states", "outcome"] with
  | [states, outcome] => return ⟨← states.list? Json.natural?, ← verdictOfJson? outcome⟩
  | _ => none

end Trace

namespace TapePair

/-- Two tapes with their heads, as a record. -/
def toJson (p : TapePair) : Json :=
  .record [("tapes", .ofPair (.ofList Symbol.toJson) p.tapes), ("heads", .ofPair .ofNat p.heads)]

/-- The two tapes of a record.  The heads may be anywhere. -/
def ofJson? (value : Json) : Option TapePair := do
  match ← value.allFields? ["tapes", "heads"] with
  | [tapes, heads] =>
    return ⟨← tapes.pair? (Json.list? Symbol.ofJson?), ← heads.pair? Json.natural?⟩
  | _ => none

end TapePair

namespace Equivalence

/-- A field of settings, or its default if it is missing. -/
def Settings.field? (default : Nat) : Option Json → Option Nat
  | some value => value.natural?
  | none => some default

/-- Settings as a record. -/
def Settings.toJson (s : Settings) : Json :=
  .record [("max_len", .ofNat s.maxLength), ("step_limit", .ofNat s.stepLimit)]

/-- The settings of a record; missing fields have their defaults. -/
def Settings.ofJson? (value : Json) : Option Settings := do
  let defaults : Settings := {}
  match ← value.fields? ["max_len", "step_limit"] with
  | [maxLength, stepLimit] =>
    return ⟨← Settings.field? defaults.maxLength maxLength,
      ← Settings.field? defaults.stepLimit stepLimit⟩
  | _ => none

/-- The settings a text stands for. -/
def Settings.ofText (text : String) : Except Fault Settings :=
  match (Json.parse text).bind Settings.ofJson? with
  | some settings => .ok settings
  | none => .error .badSettings

/-- A counterexample as a record. -/
def Counterexample.toJson (c : Counterexample) : Json :=
  .record [("input", .ofList Symbol.toJson c.input), ("dual_table", .ofText c.twoTable),
    ("dual_trace", c.twoTrace.toJson), ("single_table", .ofText c.oneTable),
    ("single_trace", c.oneTrace.toJson)]

/-- A report as a record. -/
def Report.toJson (r : Report) : Json :=
  .record [("checked", .ofNat r.checked), ("undetermined", .ofNat r.undetermined),
    ("max_len", .ofNat r.maxLength),
    ("counterexample", .ofOption Counterexample.toJson r.counterexample)]

end Equivalence

end TapeReduction
