import MarkupTemplate.Evaluation.Fault
import MarkupTemplate.Text.Split
import MarkupTemplate.Value.Basic

/-!
# Operators on values

Arithmetic on 64-bit integers is exact or fails; truth values count as 0 and 1; with a float in it,
an operation is one on floats. Comparison orders numbers by their floats, strings by code points and
lists item by item.
-/

namespace MarkupTemplate.Host

open Numeric

/-- An integer operand. -/
def integer? : Value → Option Int64
  | .int n => some n
  | .bool b => some (if b then 1 else 0)
  | _ => none

/-- A numeric operand. -/
def number : Value → Option Float
  | .int n => some (ofInt64 n)
  | .float x => some x
  | .bool b => some (if b then 1.0 else 0.0)
  | _ => none

/-- The result of an operator; none is an overflow. -/
def fitted (op : BinaryOp) : Option Int64 → Except EvalFault Value
  | some n => .ok (.int n)
  | none => .error (.mismatch (.overflow op))

/-- A result that must fit into 64 bits. -/
def exact (op : BinaryOp) (n : Int) : Except EvalFault Value :=
  fitted op (int64? n)

/-- The quotient cut towards zero; none if the divisor is zero or the quotient does not fit. -/
def quotient? (a b : Int64) : Option Int64 :=
  if b = 0 then none else int64? (a.toInt.tdiv b.toInt)

/-- One of two integers is negative and the other is not. -/
def signsDiffer (a b : Int64) : Bool :=
  decide (a < 0) != decide (b < 0)

/-- The quotient rounded down; none if the divisor is zero or the quotient does not fit. Cutting rounds up
where the exact quotient is negative and not whole. -/
def floorQuotient? (a b : Int64) : Option Int64 := do
  let q ← quotient? a b
  if a % b != 0 && signsDiffer a b then int64? (q.toInt - 1) else some q

/-- The remainder with the sign of the divisor. The remainder of cutting has the sign of `a`. -/
def floorRemainder (a b : Int64) : Int64 :=
  let r := a % b
  if r != 0 && signsDiffer r b then r + b else r

/-- An arithmetic operator on integers. -/
def integerArithmetic (op : BinaryOp) (a b : Int64) (unsupported : EvalFault) :
    Except EvalFault Value :=
  let divided := fun (result : Except EvalFault Value) =>
    if b = 0 then .error (.mismatch .divisionByZero) else result
  match op with
  | .add => exact op (a.toInt + b.toInt)
  | .sub => exact op (a.toInt - b.toInt)
  | .mul => exact op (a.toInt * b.toInt)
  | .div => divided (.ok (.float (ofInt64 a / ofInt64 b)))
  | .floorDiv => divided (fitted op (floorQuotient? a b))
  | .mod => divided (.ok (.int (floorRemainder a b)))
  | _ => .error unsupported

/-- An arithmetic operator on floats. -/
def floatArithmetic (op : BinaryOp) (a b : Float) (unsupported : EvalFault) :
    Except EvalFault Value :=
  let divided := fun (x : Float) =>
    if b == 0.0 then .error (.mismatch .divisionByZero) else .ok (.float x)
  match op with
  | .add => .ok (.float (a + b))
  | .sub => .ok (.float (a - b))
  | .mul => .ok (.float (a * b))
  | .div => divided (a / b)
  | .floorDiv => divided (Rounding.down.toFloat (a / b))
  | .mod => divided (a - Rounding.down.toFloat (a / b) * b)
  | _ => .error unsupported

/-- An arithmetic operator. -/
def arithmetic (op : BinaryOp) (left right : Value) : Except EvalFault Value :=
  let unsupported : EvalFault := .mismatch (.unsupported op left.kind right.kind)
  match integer? left, integer? right with
  | some a, some b => integerArithmetic op a b unsupported
  | _, _ =>
    match number left, number right with
    | some a, some b => floatArithmetic op a b unsupported
    | _, _ => .error unsupported

/-- Addition also joins strings and lists. -/
def add (left right : Value) : Except EvalFault Value :=
  match left, right with
  | .str a, .str b => .ok (.str (a ++ b))
  | .list a, .list b => .ok (.list (a ++ b))
  | _, _ => arithmetic .add left right

/-- The negative of a number. -/
def negate (v : Value) : Except EvalFault Value :=
  match v with
  | .int n =>
    match int64? (-n.toInt) with
    | some n => .ok (.int n)
    | none => .error (.mismatch .negationOverflow)
  | .float x => .ok (.float (-x))
  | v => .error (.mismatch (.badNegation v.kind))

/-! ### Comparison -/

/-- An integer or a float. -/
def isNumeric : Value → Bool
  | .int _ => true
  | .float _ => true
  | _ => false

/-- Equality: an integer and a float are compared as floats, all other values by their parts. -/
def equals (left right : Value) : Bool :=
  if isNumeric left && isNumeric right then
    match number left, number right with
    | some a, some b => a == b
    | _, _ => false
  else left.same right

/-- The order of two floats, if they have one. -/
def compareFloats (a b : Float) : Option Ordering :=
  if a < b then some .lt
  else if a == b then some .eq
  else if b < a then some .gt
  else none

mutual

/-- The order of two values: none if a side is nothing, a fault if they cannot be compared. -/
def compare (left right : Value) : Except EvalFault (Option Ordering) :=
  match left, right with
  | .nothing, _ => .ok none
  | _, .nothing => .ok none
  | .str a, .str b => .ok (some (Ord.compare a b))
  | .list as, .list bs => compareItems as bs
  | left, right =>
    match number left, number right with
    | some a, some b => .ok (compareFloats a b)
    | _, _ => .error (.mismatch (.notComparable left.kind right.kind))

/-- The order of two lists: that of the first items that are not equal, else that of the lengths. -/
def compareItems : List Value → List Value → Except EvalFault (Option Ordering)
  | [], [] => .ok (some .eq)
  | [], _ :: _ => .ok (some .lt)
  | _ :: _, [] => .ok (some .gt)
  | a :: as, b :: bs =>
    match compare a b with
    | .ok (some .eq) => compareItems as bs
    | other => other

end

/-- An item is in a container: a part of a string, an item of a list or a key of a map. -/
def contains (container item : Value) : Except EvalFault Bool :=
  match container, item with
  | .str text, .str part => .ok (Text.occursIn part.toList text.toList)
  | .list items, item => .ok (items.any fun candidate => equals candidate item)
  | .map fields, .str key => .ok (Fields.has fields key)
  | .nothing, _ => .ok false
  | container, item => .error (.mismatch (.noContainer item.kind container.kind))

/-- A comparison that holds for some orders. -/
def ordered (holds : Ordering → Bool) (left right : Value) : Except EvalFault Value :=
  (fun order => .bool (order.any holds)) <$> compare left right

/-- An operator on two values. -/
def binary (op : BinaryOp) (left right : Value) : Except EvalFault Value :=
  match op with
  | .add => add left right
  | .sub | .mul | .div | .floorDiv | .mod => arithmetic op left right
  | .eq => .ok (.bool (equals left right))
  | .ne => .ok (.bool !(equals left right))
  | .lt => ordered (· == .lt) left right
  | .le => ordered (· != .gt) left right
  | .gt => ordered (· == .gt) left right
  | .ge => ordered (· != .lt) left right
  | .isIn => .bool <$> contains right left
  | .isNotIn => (fun found => .bool !found) <$> contains right left
  | .and | .or => .error (.mismatch .lazyOperator)

/-! ### Parts of values -/

/-- The item at an index; a negative one counts from the end. -/
def itemAt? {α : Type} (items : List α) (i : Int64) : Option α :=
  let position := if i.toInt < 0 then items.length + i.toInt else i.toInt
  if position < 0 then none else items[position.toNat]?

/-- The part of a value that an index selects. -/
def subscript (target i : Value) : Except EvalFault Value :=
  match target, i with
  | .list items, .int n =>
    match itemAt? items n with
    | some v => .ok v
    | none => .error (.navigation ("[" ++ i.text ++ "]") i.text .outOfRange)
  | .str s, .int n =>
    match itemAt? s.toList n with
    | some c => .ok (.str c.toString)
    | none => .error (.navigation ("[" ++ i.text ++ "]") i.text .outOfRange)
  | .map fields, .str key =>
    match Fields.get? fields key with
    | some v => .ok v
    | none => .error (.navigation ("['" ++ key ++ "']") key .noSuchKey)
  | target, i => .error (.mismatch (.notIndexable target.kind i.kind))

end MarkupTemplate.Host
