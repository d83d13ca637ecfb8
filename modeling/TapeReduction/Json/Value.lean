/-!
# JSON values

A JSON value keeps numbers as they are written and all members of an object in
order, repeated names included.  A string whose escapes do not spell a text is
kept as having none; it is an error only where the text is asked for.
-/

namespace TapeReduction

/-- A JSON value. -/
inductive Json where
  | null
  | bool (value : Bool)
  | number (literal : String)
  | string (text : Option String)
  | array (items : List Json)
  | object (members : List (Option String × Json))

namespace Json

/-- A string with a text. -/
def ofText (text : String) : Json :=
  .string (some text)

/-- A natural number. -/
def ofNat (n : Nat) : Json :=
  .number (toString n)

/-- An object with named members. -/
def record (members : List (String × Json)) : Json :=
  .object (members.map fun m => (some m.1, m.2))

/-- A value or `null`. -/
def ofOption {α : Type} (encode : α → Json) : Option α → Json
  | some a => encode a
  | none => .null

/-- A list as an array. -/
def ofList {α : Type} (encode : α → Json) (items : List α) : Json :=
  .array (items.map encode)

/-- A pair as an array of two. -/
def ofPair {α : Type} (encode : α → Json) (pair : α × α) : Json :=
  .array [encode pair.1, encode pair.2]

end Json

end TapeReduction
