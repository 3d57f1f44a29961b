import MarkupTemplate.Json.Basic
import MarkupTemplate.Value.Basic

/-!
# Values from data

JSON data as values: a whole number that 64 signed bits hold is an integer, every other number a
float; of members with one name the last one counts.
-/

namespace MarkupTemplate.Value

mutual

/-- The value that JSON data stands for. -/
def ofJson : Json → Value
  | .null | .unfit => nothing
  | .bool b => bool b
  | .int n =>
    match Numeric.int64? n with
    | some n => int n
    | none => float (Float.ofInt n)
  | .float x => float x
  | .string s => str s
  | .array items => list (ofItems items)
  | .object members => map (Fields.ofList (ofMembers members))

/-- The values of items. -/
def ofItems : List Json → List Value
  | [] => []
  | item :: items => ofJson item :: ofItems items

/-- The values of members. -/
def ofMembers : List (String × Json) → List (String × Value)
  | [] => []
  | (name, item) :: members => (name, ofJson item) :: ofMembers members

end

end MarkupTemplate.Value
