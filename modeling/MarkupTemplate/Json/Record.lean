import MarkupTemplate.Json.Basic
import MarkupTemplate.Numeric.Binary64

/-!
# Records and variants in JSON

How typed data is laid out in JSON. A record is an object, whose further members are passed over, fit
or not, or an array of all its fields in order; a field is given at most once, and an optional one may
be absent.
A variant is its name alone or an object with its name as the only member.
-/

namespace MarkupTemplate.Json

/-- The fields of a record in the order of `names`. -/
def record? (names : List String) : Json → Option (List (Option Json))
  | object members => names.mapM fun name =>
    match membersNamed name members with
    | [] => some none
    | [value] => some (some value)
    | _ => none
  | array items => if items.length = names.length then some (items.map some) else none
  | _ => none

/-- A field that has to be there. -/
def required {α : Type} (read : Json → Option α) (field : Option Json) : Option α :=
  field.bind read

/-- A value that may be `null`. -/
def optional? {α : Type} (read : Json → Option α) : Json → Option (Option α)
  | null => some none
  | j => some <$> read j

/-- A field that may be absent or `null`. -/
def optionalField {α : Type} (read : Json → Option α) : Option Json → Option (Option α)
  | none => some none
  | some j => optional? read j

/-- An array of values of one type. -/
def listOf? {α : Type} (read : Json → Option α) (j : Json) : Option (List α) :=
  j.items?.bind fun items => items.mapM read

/-- An object of values of one type. -/
def mapOf? {α : Type} (read : Json → Option α) : Json → Option (List (String × α))
  | object members => members.mapM fun member => (fun a => (member.1, a)) <$> read member.2
  | _ => none

/-- The name of a variant and its content; a name alone has none. -/
def variant? : Json → Option (String × Json)
  | string name => some (name, null)
  | object [(name, content)] => some (name, content)
  | _ => none

/-- A variant with content. -/
def variant (name : String) (content : Json) : Json :=
  object [(name, content)]

/-- A text of one character. -/
def char? : Json → Option Char
  | string s =>
    match s.toList with
    | [c] => some c
    | _ => none
  | _ => none

/-- A 64-bit integer. -/
def int64? : Json → Option Int64
  | int n => Numeric.int64? n
  | _ => none

/-- A number as a float. -/
def float? : Json → Option Float
  | int n => some (Float.ofInt n)
  | float x => some x
  | _ => none

mutual

/-- The greatest number of arrays and objects around each other, plus one. -/
def height : Json → Nat
  | array items => heightItems items + 1
  | object members => heightMembers members + 1
  | _ => 1

/-- The greatest height of items. -/
def heightItems : List Json → Nat
  | [] => 0
  | item :: items => max (height item) (heightItems items)

/-- The greatest height of the values of members. -/
def heightMembers : List (String × Json) → Nat
  | [] => 0
  | (_, value) :: members => max (height value) (heightMembers members)

end

end MarkupTemplate.Json
