import MarkupTemplate.Json.Basic
import MarkupTemplate.Numeric.Decimal

/-!
# Writing JSON

Values are written without blanks. Strings escape the quote, the backslash and the controls. A float
that is no finite number is written as `null`, and so is what stands for no value.
-/

namespace MarkupTemplate.Json

open MarkupTemplate.Numeric

/-- One character between the quotes of a string. -/
def writeChar (c : Char) : List Char :=
  if c = '"' then ['\\', '"']
  else if c = '\\' then ['\\', '\\']
  else if c = '\n' then ['\\', 'n']
  else if c = '\r' then ['\\', 'r']
  else if c = '\t' then ['\\', 't']
  else if c.toNat = 8 then ['\\', 'b']
  else if c.toNat = 12 then ['\\', 'f']
  else if c.toNat < 0x20 then
    ['\\', 'u', '0', '0', Nat.digitChar (c.toNat / 16), Nat.digitChar (c.toNat % 16)]
  else [c]

/-- A string between its quotes. -/
def writeString (s : String) : String :=
  String.ofList ('"' :: s.toList.flatMap writeChar ++ ['"'])

/-- A float as a number. -/
def writeFloat (x : Float) : String :=
  match parts x with
  | .finite .. => floatNotation x
  | _ => "null"

mutual

/-- The text of a value. -/
def write : Json → String
  | null | unfit => "null"
  | bool b => if b then "true" else "false"
  | int n => toString n
  | float x => writeFloat x
  | string s => writeString s
  | array items => "[" ++ ",".intercalate (writeItems items) ++ "]"
  | object members => "\x7b" ++ ",".intercalate (writeMembers members) ++ "\x7d"

/-- The texts of the items of an array. -/
def writeItems : List Json → List String
  | [] => []
  | item :: items => write item :: writeItems items

/-- The texts of the members of an object. -/
def writeMembers : List (String × Json) → List String
  | [] => []
  | (name, value) :: members => (writeString name ++ ":" ++ write value) :: writeMembers members

end

end MarkupTemplate.Json
