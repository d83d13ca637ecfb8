import TapeReduction.Json.Value
import TapeReduction.Text.Decimal

/-!
# Shapes of JSON values

How the values of this library appear in JSON: numbers, lists, pairs, one of
several kinds, and records.
-/

namespace TapeReduction.Json

/-- A number without sign, fraction and exponent that fits in a machine word. -/
def natural? : Json → Option Nat
  | .number literal =>
    if literal.toList.all Char.isDigit then Text.wordOfDigits 0 literal.toList else none
  | _ => none

/-- An array of items of one shape. -/
def list? {α : Type} (decode : Json → Option α) : Json → Option (List α)
  | .array items => items.mapM decode
  | _ => none

/-- An array of exactly two items of one shape. -/
def pair? {α : Type} (decode : Json → Option α) : Json → Option (α × α)
  | .array [a, b] => do return (← decode a, ← decode b)
  | _ => none

/-- One of several kinds: its name as a string, or as the only member of an object that
holds its content. -/
def kind? : Json → Option (String × Option Json)
  | .string (some name) => some (name, none)
  | .object [(some name, content)] => some (name, some content)
  | _ => none

/-- A kind without content, which may be given as `null`. -/
def bareKind? (value : Json) : Option String :=
  match value.kind? with
  | some (name, none) => some name
  | some (name, some .null) => some name
  | _ => none

/-- The value of a field of an object, if it has one: nothing if there are several. -/
def field? (members : List (Option String × Json)) (name : String) : Option (Option Json) :=
  match members.filter fun m => m.1 == some name with
  | [] => some none
  | [m] => some (some m.2)
  | _ => none

/-- The fields of a record, some of which may be missing.  A record is an object, in which
other members do not count, or an array of its leading fields in order. -/
def fields? (names : List String) : Json → Option (List (Option Json))
  | .object members =>
    if members.all fun m => m.1.isSome then names.mapM (field? members) else none
  | .array items =>
    if items.length ≤ names.length then
      some (items.map some ++ List.replicate (names.length - items.length) none)
    else none
  | _ => none

/-- The fields of a record, none of which may be missing. -/
def allFields? (names : List String) (value : Json) : Option (List Json) := do
  (← value.fields? names).mapM id

end TapeReduction.Json
