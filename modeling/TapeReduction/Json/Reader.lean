import TapeReduction.Json.Value

/-!
# Reading JSON

A text is one JSON value with blanks around it.  Values follow the grammar of the
format to the letter: no trailing commas, no leading zeros, no control characters
in strings.
-/

namespace TapeReduction.Json

/-- Past the blanks of the format. -/
def skip : List Char → List Char :=
  List.dropWhile fun c => c = ' ' || c = '\t' || c = '\n' || c = '\r'

/-- The value of a hexadecimal digit. -/
def hexValue? (c : Char) : Option Nat :=
  if '0' ≤ c && c ≤ '9' then some (c.toNat - '0'.toNat)
  else if 'a' ≤ c && c ≤ 'f' then some (c.toNat - 'a'.toNat + 10)
  else if 'A' ≤ c && c ≤ 'F' then some (c.toNat - 'A'.toNat + 10)
  else none

/-- The value of four hexadecimal digits, and the rest. -/
def readHex4 : List Char → Option (Nat × List Char)
  | a :: b :: c :: d :: rest => do
    let a ← hexValue? a
    let b ← hexValue? b
    let c ← hexValue? c
    let d ← hexValue? d
    return (((a * 16 + b) * 16 + c) * 16 + d, rest)
  | _ => none

/-- The character behind a backslash that stands for itself or for a control. -/
def simpleEscape? : Char → Option Char
  | '\x22' => some '\x22'
  | '\\' => some '\\'
  | '/' => some '/'
  | 'b' => some (Char.ofNat 8)
  | 'f' => some (Char.ofNat 12)
  | 'n' => some '\n'
  | 'r' => some '\r'
  | 't' => some '\t'
  | _ => none

/-- A piece of a string: a character, or one half of a pair of escapes that stands for
a character beyond four digits. -/
inductive Piece where
  | char (c : Char)
  | high (code : Nat)
  | low (code : Nat)

/-- The piece a code unit of an escape stands for. -/
def Piece.ofUnit (code : Nat) : Piece :=
  if 0xd800 ≤ code && code < 0xdc00 then .high code
  else if 0xdc00 ≤ code && code < 0xe000 then .low code
  else .char (Char.ofNat code)

/-- The text of pieces, if every half is part of a pair.  `text` is what stands before,
backwards. -/
def joinPieces (text : List Char) : List Piece → Option String
  | [] => some (String.ofList text.reverse)
  | .char c :: rest => joinPieces (c :: text) rest
  | .high high :: .low low :: rest =>
    joinPieces (Char.ofNat (0x10000 + (high - 0xd800) * 0x400 + (low - 0xdc00)) :: text) rest
  | _ => none

/-- Reads a string behind its opening quote; `pieces` were read before, latest first. -/
def readString (pieces : List Piece) : Nat → List Char → Option (Option String × List Char)
  | 0, _ => none
  | _, [] => none
  | _, '\x22' :: rest => some (joinPieces [] pieces.reverse, rest)
  | fuel + 1, '\\' :: 'u' :: rest =>
    match readHex4 rest with
    | some (code, rest) => readString (.ofUnit code :: pieces) fuel rest
    | none => none
  | fuel + 1, '\\' :: c :: rest =>
    match simpleEscape? c with
    | some c => readString (.char c :: pieces) fuel rest
    | none => none
  | fuel + 1, c :: rest =>
    if c = '\\' || c.toNat < 0x20 then none
    else readString (.char c :: pieces) fuel rest

/-- Splits a text behind its leading digits, of which there has to be one. -/
def readDigits (cs : List Char) : Option (List Char × List Char) :=
  match cs.takeWhile Char.isDigit with
  | [] => none
  | digits => some (digits, cs.dropWhile Char.isDigit)

/-- Reads the whole part of a number: a zero, or digits that do not start with one. -/
def readWhole : List Char → Option (List Char × List Char)
  | '0' :: rest =>
    match rest with
    | c :: _ => if c.isDigit then none else some (['0'], rest)
    | [] => some (['0'], rest)
  | cs => readDigits cs

/-- Reads a point and digits, or nothing. -/
def readFraction : List Char → Option (List Char × List Char)
  | '.' :: rest => (readDigits rest).map fun (digits, rest) => ('.' :: digits, rest)
  | cs => some ([], cs)

/-- Reads the sign of an exponent, or nothing. -/
def readSign : List Char → List Char × List Char
  | '+' :: rest => (['+'], rest)
  | '-' :: rest => (['-'], rest)
  | cs => ([], cs)

/-- Reads an exponent, or nothing. -/
def readExponent : List Char → Option (List Char × List Char)
  | [] => some ([], [])
  | e :: rest =>
    if e = 'e' || e = 'E' then
      let (sign, rest) := readSign rest
      (readDigits rest).map fun (digits, rest) => (e :: sign ++ digits, rest)
    else
      some ([], e :: rest)

/-- Reads a number without a minus. -/
def readUnsigned (cs : List Char) : Option (List Char × List Char) := do
  let (whole, cs) ← readWhole cs
  let (fraction, cs) ← readFraction cs
  let (exponent, cs) ← readExponent cs
  return (whole ++ fraction ++ exponent, cs)

/-- Reads a number. -/
def readNumber : List Char → Option (List Char × List Char)
  | '-' :: rest => (readUnsigned rest).map fun (literal, rest) => ('-' :: literal, rest)
  | cs => readUnsigned cs

mutual

/-- Reads a value that starts here. -/
def readValue : Nat → List Char → Option (Json × List Char)
  | 0, _ => none
  | fuel + 1, cs =>
    match cs with
    | 'n' :: 'u' :: 'l' :: 'l' :: rest => some (.null, rest)
    | 't' :: 'r' :: 'u' :: 'e' :: rest => some (.bool true, rest)
    | 'f' :: 'a' :: 'l' :: 's' :: 'e' :: rest => some (.bool false, rest)
    | '\x22' :: rest =>
      (readString [] (fuel + 1) rest).map fun (text, rest) => (.string text, rest)
    | '[' :: rest =>
      match skip rest with
      | ']' :: rest => some (.array [], rest)
      | rest => readItems [] fuel rest
    | '\x7b' :: rest =>
      match skip rest with
      | '\x7d' :: rest => some (.object [], rest)
      | rest => readMembers [] fuel rest
    | cs =>
      (readNumber cs).map fun (literal, rest) => (.number (String.ofList literal), rest)

/-- Reads the items of an array from one of them on; `items` were read before, latest
first. -/
def readItems (items : List Json) : Nat → List Char → Option (Json × List Char)
  | 0, _ => none
  | fuel + 1, cs =>
    match readValue fuel cs with
    | none => none
    | some (item, rest) =>
      match skip rest with
      | ',' :: rest => readItems (item :: items) fuel (skip rest)
      | ']' :: rest => some (.array (item :: items).reverse, rest)
      | _ => none

/-- Reads the members of an object from one of them on; `members` were read before,
latest first. -/
def readMembers (members : List (Option String × Json)) :
    Nat → List Char → Option (Json × List Char)
  | 0, _ => none
  | fuel + 1, cs =>
    match cs with
    | '\x22' :: rest =>
      match readString [] (fuel + 1) rest with
      | none => none
      | some (name, rest) =>
        match skip rest with
        | ':' :: rest =>
          match readValue fuel (skip rest) with
          | none => none
          | some (value, rest) =>
            match skip rest with
            | ',' :: rest => readMembers ((name, value) :: members) fuel (skip rest)
            | '\x7d' :: rest => some (.object ((name, value) :: members).reverse, rest)
            | _ => none
        | _ => none
    | _ => none

end

/-- The value of a text.  Each character is looked at by at most two rounds of reading,
so twice the length of the text bounds them. -/
def parse (text : String) : Option Json :=
  match readValue (2 * text.length + 2) (skip text.toList) with
  | some (value, rest) => if (skip rest).isEmpty then some value else none
  | none => none

end TapeReduction.Json
