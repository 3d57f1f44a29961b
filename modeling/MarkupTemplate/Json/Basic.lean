/-!
# JSON values

A number is a whole number of at most 64 bits, signed or not, or a float. An object keeps its members
as they were written, repeated names included; `Json.membersNamed` finds those of a name. A text can
be well-formed and yet stand for no value; such a part is `Json.unfit`, and a text that is to stand
for a value as a whole has none (`Json.fits`).
-/

namespace MarkupTemplate

/-- A JSON value. -/
inductive Json where
  | null
  | bool (b : Bool)
  | int (n : Int)
  | float (x : Float)
  | string (s : String)
  | array (items : List Json)
  | object (members : List (String × Json))
  /-- Well-formed, but no value: a number out of range, a string with half of a pair of words, or
  arrays and objects that nest too deep. It does no harm where values are passed over. -/
  | unfit
  deriving Inhabited

namespace Json

/-- The values of all members with this name. -/
def membersNamed (name : String) (members : List (String × Json)) : List Json :=
  (members.filter (·.1 == name)).map (·.2)

/-- The last value that an object gives to a name. -/
def get? (name : String) : Json → Option Json
  | object members => (membersNamed name members).getLast?
  | _ => none

/-- The text of a string. -/
def text? : Json → Option String
  | string s => some s
  | _ => none

/-- The items of an array. -/
def items? : Json → Option (List Json)
  | array items => some items
  | _ => none

/-- A whole number that is not negative. -/
def nat? : Json → Option Nat
  | int n => if 0 ≤ n then some n.toNat else none
  | _ => none

/-- A truth value. -/
def bool? : Json → Option Bool
  | bool b => some b
  | _ => none

/-- An array; an item that is no value spoils it. -/
def ofItems (items : List Json) : Json :=
  if items.any fun item => item matches unfit then unfit else array items

/-- A member whose name is a text. -/
def namedMember? (member : Option String × Json) : Option (String × Json) :=
  member.1.map fun name => (name, member.2)

/-- An object; a name that is no text spoils it. -/
def ofMembers (members : List (Option String × Json)) : Json :=
  (members.mapM namedMember?).elim unfit object

mutual

/-- No part is unfit. -/
def fits : Json → Bool
  | array items => itemsFit items
  | object members => membersFit members
  | unfit => false
  | _ => true

/-- No part of the items is unfit. -/
def itemsFit : List Json → Bool
  | [] => true
  | item :: items => fits item && itemsFit items

/-- No part of the members' values is unfit. -/
def membersFit : List (String × Json) → Bool
  | [] => true
  | (_, value) :: members => fits value && membersFit members

end

/-- An optional value; `null` is none. -/
def ofOption {α : Type} (f : α → Json) : Option α → Json
  | some a => f a
  | none => null

end Json

end MarkupTemplate
