import MarkupTemplate.Evaluation.Fault
import MarkupTemplate.Text.Blank
import MarkupTemplate.Value.Basic

/-!
# Values of a declared type

A declared type accepts nothing, its own values, and some others that stand for one of its values.
-/

namespace MarkupTemplate.TypeTag

/-- The value as one of the declared type. -/
def coerce (tag : TypeTag) (v : Value) : Except EvalFault Value :=
  let refused : Except EvalFault Value := .error (.mismatch (.expectedType tag v.kind))
  match tag, v with
  | _, .nothing => .ok .nothing
  | any, v => .ok v
  | int, .int n => .ok (.int n)
  | int, .float x =>
    if Numeric.isWhole x then .ok (.int (Numeric.Rounding.towardZero.toInt64 x)) else refused
  | int, .bool b => .ok (.int (if b then 1 else 0))
  | int, .str s =>
    match Numeric.readInt? (Text.trim s.toList) with
    | some n => .ok (.int n)
    | none => refused
  | float, .float x => .ok (.float x)
  | float, .int n => .ok (.float (Numeric.ofInt64 n))
  | float, .str s =>
    match Numeric.readFloat? (Text.trim s.toList) with
    | some x => .ok (.float x)
    | none => refused
  | str, .str s => .ok (.str s)
  | str, .int n => .ok (.str (Value.int n).text)
  | str, .float x => .ok (.str (Value.float x).text)
  | str, .bool b => .ok (.str (Value.bool b).text)
  | bool, v => .ok (.bool v.isTruthy)
  | list, .list items => .ok (.list items)
  | map, .map fields => .ok (.map fields)
  | _, _ => refused

end MarkupTemplate.TypeTag
