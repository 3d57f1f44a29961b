import MarkupTemplate.Numeric.Decimal
import MarkupTemplate.Numeric.Reading
import MarkupTemplate.Value.Fields
import MarkupTemplate.Value.Kind

/-!
# Values

What expressions evaluate to: nothing, the demand for what the template already has, truth values,
64-bit integers, floats, strings, lists, maps and handles of macros. Every value has a text, a truth
value and, if it is a list or a map, parts that a path segment selects.
-/

namespace MarkupTemplate

/-- A macro of the running program. -/
structure MacroHandle where
  id : Nat
  name : String
  deriving DecidableEq, Repr, Inhabited

/-- A value. The fields of a map are in the order of their names. -/
inductive Value where
  | nothing
  | default
  | bool (b : Bool)
  | int (n : Int64)
  | float (x : Float)
  | str (s : String)
  | list (items : List Value)
  | map (fields : List (String × Value))
  | handle (m : MacroHandle)
  deriving Inhabited

namespace Value

/-- The kind of a value. -/
def kind : Value → ValueKind
  | nothing => .nothing
  | default => .default
  | bool _ => .bool
  | int _ => .int
  | float _ => .float
  | str _ => .string
  | list _ => .list
  | map _ => .map
  | handle _ => .handle

/-- Counts as true in conditions: all but nothing, false, zero and what is empty. -/
def isTruthy : Value → Bool
  | nothing => false
  | default => true
  | bool b => b
  | int n => n != 0
  | float x => x != 0.0
  | str s => !s.isEmpty
  | list items => !items.isEmpty
  | map fields => !fields.isEmpty
  | handle _ => true

/-- The value is `nothing`. -/
def isNothing : Value → Bool
  | nothing => true
  | _ => false

/-- The value is `default`. -/
def isDefault : Value → Bool
  | default => true
  | _ => false

/-- The part that a path segment selects: a field of a map, or an item of a list by its index. -/
def get? (v : Value) (segment : String) : Option Value :=
  match v with
  | map fields => Fields.get? fields segment
  | list items => (Numeric.readIndex? segment.toList).bind fun i => items[i]?
  | _ => none

/-- A natural number; beyond the range of integers, the greatest one. -/
def ofNat (n : Nat) : Value :=
  int (Numeric.saturate n)

mutual

/-- The text of a value, as templates print it. -/
def text : Value → String
  | nothing => ""
  | default => ""
  | bool b => if b then "true" else "false"
  | int n => toString n.toInt
  | float x => Numeric.floatText x
  | str s => s
  | list items => ", ".intercalate (texts items)
  | map fields => "\x7b" ++ ", ".intercalate (fieldTexts fields) ++ "\x7d"
  | handle m => "<macro " ++ m.name ++ ">"

/-- The texts of values. -/
def texts : List Value → List String
  | [] => []
  | v :: vs => v.text :: texts vs

/-- The texts of fields. -/
def fieldTexts : List (String × Value) → List String
  | [] => []
  | (name, v) :: fields => (name ++ ": " ++ v.text) :: fieldTexts fields

end

mutual

/-- Two values are the same; floats are compared as numbers. -/
def same : Value → Value → Bool
  | nothing, nothing => true
  | default, default => true
  | bool a, bool b => a == b
  | int a, int b => a == b
  | float a, float b => a == b
  | str a, str b => a == b
  | list a, list b => sameItems a b
  | map a, map b => sameFields a b
  | handle a, handle b => a == b
  | _, _ => false

/-- Two lists hold the same values. -/
def sameItems : List Value → List Value → Bool
  | [], [] => true
  | a :: as, b :: bs => a.same b && sameItems as bs
  | _, _ => false

/-- Two maps have the same fields. -/
def sameFields : List (String × Value) → List (String × Value) → Bool
  | [], [] => true
  | (m, a) :: as, (n, b) :: bs => m == n && a.same b && sameFields as bs
  | _, _ => false

end

end Value

end MarkupTemplate
