import MarkupTemplate.Host.Arithmetic
import MarkupTemplate.Text.Words

/-!
# Function libraries

The functions that host code can call, in libraries: `core` is always there, the others are named by a
template's dependencies.
-/

namespace MarkupTemplate.Host

open Numeric

/-- The libraries. -/
inductive Library where
  | core
  | text
  | math
  | seq
  deriving DecidableEq, Repr, Inhabited

/-- The library of a name. -/
def Library.parse? (name : String) : Option Library :=
  match name with
  | "core" => some core
  | "text" => some text
  | "math" => some math
  | "seq" => some seq
  | _ => none

/-- The functions. -/
inductive Builtin where
  | len | str | int | float | bool | range
  | upper | lower | strip | title | replace | split | join | startsWith | endsWith
  | abs | min | max | round | floor | ceil | sum
  | sorted | reversed | first | last | slice | enumerate
  deriving DecidableEq, Repr, Inhabited

namespace Builtin

/-- The name of a function in host code. -/
def name : Builtin → String
  | len => "len" | str => "str" | int => "int" | float => "float" | bool => "bool"
  | range => "range" | upper => "upper" | lower => "lower" | strip => "strip" | title => "title"
  | replace => "replace" | split => "split" | join => "join" | startsWith => "startswith"
  | endsWith => "endswith" | abs => "abs" | min => "min" | max => "max" | round => "round"
  | floor => "floor" | ceil => "ceil" | sum => "sum" | sorted => "sorted"
  | reversed => "reversed" | first => "first" | last => "last" | slice => "slice"
  | enumerate => "enumerate"

end Builtin

/-- The functions of a library. -/
def Library.functions : Library → List Builtin
  | core => [.len, .str, .int, .float, .bool, .range]
  | text =>
    [.upper, .lower, .strip, .title, .replace, .split, .join, .startsWith, .endsWith]
  | math => [.abs, .min, .max, .round, .floor, .ceil, .sum]
  | seq => [.sorted, .reversed, .first, .last, .slice, .enumerate]

/-- The function of a name in some libraries. -/
def findFunction? (libraries : List Library) (name : String) : Option Builtin :=
  (libraries.flatMap Library.functions).find? (·.name == name)

/-- `core` and the named libraries, or the first name that is none. -/
def libraries (names : List String) : Except String (List Library) := do
  let named ← names.mapM fun name =>
    match Library.parse? name with
    | some library => .ok library
    | none => .error name
  return .core :: named

/-! ### Arguments -/

/-- What a function returns. -/
abbrev Result := Except EvalFault Value

/-- Fails with a mismatch. -/
def refuse {α : Type} (m : Mismatch) : Except EvalFault α := .error (.mismatch m)

/-- The only argument. -/
def oneArgument (f : Builtin) (args : List Value) (run : Value → Result) : Result :=
  match args with
  | [v] => run v
  | _ => refuse (.argumentCount f.name 1 args.length)

/-- Two arguments. -/
def twoArguments (f : Builtin) (args : List Value) (run : Value → Value → Result) : Result :=
  match args with
  | [v, w] => run v w
  | _ => refuse (.argumentCount f.name 2 args.length)

/-- Three arguments. -/
def threeArguments (f : Builtin) (args : List Value) (run : Value → Value → Value → Result) :
    Result :=
  match args with
  | [u, v, w] => run u v w
  | _ => refuse (.argumentCount f.name 3 args.length)

/-- A string argument. -/
def stringArgument (f : Builtin) : Value → Except EvalFault String
  | .str s => .ok s
  | v => refuse (.expectsString f.name v.kind)

/-- A list argument. -/
def listArgument (f : Builtin) : Value → Except EvalFault (List Value)
  | .list items => .ok items
  | v => refuse (.expectsList f.name v.kind)

/-- An integer argument. -/
def integerArgument (f : Builtin) (v : Value) : Except EvalFault Int64 :=
  match integer? v with
  | some n => .ok n
  | none => refuse (.expectsInteger f.name v.kind)

/-- A numeric argument. -/
def numberArgument (f : Builtin) (v : Value) : Except EvalFault Float :=
  match number v with
  | some x => .ok x
  | none => refuse (.expectsNumber f.name v.kind)

/-! ### Core -/

/-- The length of a string in characters, of a list or of a map. -/
def lengthOf : Value → Result
  | .str s => .ok (.ofNat s.length)
  | .list items => .ok (.ofNat items.length)
  | .map fields => .ok (.ofNat fields.length)
  | v => refuse (.noLength v.kind)

/-- A value as an integer; the fraction of a float is dropped. -/
def toInt : Value → Result
  | .int n => .ok (.int n)
  | .float x => .ok (.int (Rounding.towardZero.toInt64 x))
  | .bool b => .ok (.int (if b then 1 else 0))
  | .str s =>
    match readInt? (Text.trim s.toList) with
    | some n => .ok (.int n)
    | none => refuse (.invalidLiteral "int" s)
  | v => refuse (.cannotConvert "int" v.kind)

/-- A value as a float. -/
def toFloat : Value → Result
  | .str s =>
    match readFloat? (Text.trim s.toList) with
    | some x => .ok (.float x)
    | none => refuse (.invalidLiteral "float" s)
  | v =>
    match number v with
    | some x => .ok (.float x)
    | none => refuse (.cannotConvert "float" v.kind)

/-- The integers from `start` up to but not including `stop`. -/
def integersBetween (start stop : Int64) : Value :=
  .list ((List.range (stop.toInt - start.toInt).toNat).map fun (i : Nat) =>
    .int (Int64.ofInt (start.toInt + i)))

/-- The integers from zero or a start up to a stop. -/
def rangeOf (args : List Value) : Result :=
  match args with
  | [stop] => do return integersBetween 0 (← integerArgument .range stop)
  | [start, stop] => do
    let start ← integerArgument .range start
    let stop ← integerArgument .range stop
    return integersBetween start stop
  | _ => refuse (.oneOrTwoArguments Builtin.range.name)

/-! ### Texts -/

/-- A function of one string. -/
def onString (f : Builtin) (args : List Value) (run : String → Value) : Result :=
  oneArgument f args fun v => run <$> stringArgument f v

/-- A function of two strings. -/
def onStrings (f : Builtin) (args : List Value) (run : List Char → List Char → Value) : Result :=
  twoArguments f args fun v w => do
    let v ← stringArgument f v
    let w ← stringArgument f w
    return run v.toList w.toList

/-- Strings as a list. -/
def stringList (parts : List (List Char)) : Value :=
  .list (parts.map fun part => .str (String.ofList part))

/-- The words of a text, or its parts between separators. -/
def splitText (args : List Value) : Result :=
  match args with
  | [text] => do
    let text ← stringArgument .split text
    return stringList (Text.words text.toList)
  | [text, mark] => do
    let text ← stringArgument .split text
    let mark ← stringArgument .split mark
    return stringList (Text.split mark.toList text.toList)
  | _ => refuse (.oneOrTwoArguments Builtin.split.name)

/-- A text with one string replaced by another. -/
def replaceText (args : List Value) : Result :=
  threeArguments .replace args fun text old new => do
    let text ← stringArgument .replace text
    let old ← stringArgument .replace old
    let new ← stringArgument .replace new
    return .str (String.ofList (Text.replace old.toList new.toList text.toList))

/-- The texts of a list's items with a separator between them. -/
def joinTexts (args : List Value) : Result :=
  twoArguments .join args fun items mark => do
    let items ← listArgument .join items
    let mark ← stringArgument .join mark
    return .str (mark.intercalate (items.map Value.text))

/-! ### Numbers -/

/-- The size of a number without its sign. -/
def absolute : Value → Result
  | .int n => .ok (.int (Int64.ofInt n.toInt.natAbs))
  | v => do return .float (← numberArgument .abs v).abs

/-- The better of two candidates: the later one only if it stands strictly on the preferred side. -/
def better (f : Builtin) (prefer : Ordering) (best candidate : Value) : Result := do
  let x ← numberArgument f candidate
  let y ← numberArgument f best
  return if compareFloats x y == some prefer then candidate else best

/-- The first least or greatest of several numbers, or of the items of one list. -/
def extremum (f : Builtin) (prefer : Ordering) (args : List Value) : Result :=
  let candidates := match args with
    | [.list items] => items
    | many => many
  match candidates with
  | [] => refuse (.emptySequence f.name)
  | v :: others => do
    let best ← others.foldlM (better f prefer) v
    let _ ← numberArgument f best
    return best

/-- A number rounded to an integer, or to a number of decimal places; a half goes away from zero. -/
def roundNumber (args : List Value) : Result :=
  match args with
  | [v] => do return .int (Rounding.nearest.toInt64 (← numberArgument .round v))
  | [v, digits] => do
    let digits ← integerArgument .round digits
    let factor := power 10.0 digits.toInt32.toInt
    let x ← numberArgument .round v
    return .float (Rounding.nearest.toFloat (x * factor) / factor)
  | _ => refuse (.oneOrTwoArguments Builtin.round.name)

/-- The sum of a list: of integers an integer, stopped at the ends of the range at every step, else a
float. -/
def sumOf (args : List Value) : Result :=
  oneArgument .sum args fun v => do
    let items ← listArgument .sum v
    if items.all fun item => (integer? item).isSome then
      let total ← items.foldlM (fun (total : Int64) item => do
        return saturate (total.toInt + (← integerArgument .sum item).toInt)) 0
      return .int total
    else
      let total ← items.foldlM (fun (total : Float) item => do
        return total + (← numberArgument .sum item)) 0.0
      return .float total

/-! ### Sequences -/

/-- What an item is sorted by. -/
inductive SortKey where
  | number (x : Float)
  | text (s : String)

/-- The key of an item. -/
def sortKey (v : Value) : Except EvalFault SortKey :=
  match v with
  | .str s => .ok (.text s)
  | v =>
    match number v with
    | some x => .ok (.number x)
    | none => refuse (.cannotSort v.kind)

/-- Numbers come before texts; equal keys keep their order. -/
def SortKey.le : SortKey → SortKey → Bool
  | number x, number y => !(y < x)
  | number _, text _ => true
  | text _, number _ => false
  | text s, text t => !(t < s)

/-- A list in ascending order. -/
def sortItems (args : List Value) : Result :=
  oneArgument .sorted args fun v => do
    let items ← listArgument .sorted v
    let keyed ← items.mapM fun item => do return (← sortKey item, item)
    return .list ((keyed.mergeSort fun a b => a.1.le b.1).map (·.2))

/-- A string or a list from its end. -/
def reverseOf : Value → Result
  | .str s => .ok (.str (String.ofList s.toList.reverse))
  | v => do return .list (← listArgument .reversed v).reverse

/-- A position in a list of `length` items; a negative one counts from the end. -/
def clampIndex (length : Nat) (i : Int64) : Nat :=
  let position := if i.toInt < 0 then length + i.toInt else i.toInt
  min position.toNat length

/-- The items of a list between two positions. -/
def sliceItems (args : List Value) : Result :=
  threeArguments .slice args fun v start stop => do
    let items ← listArgument .slice v
    let start := clampIndex items.length (← integerArgument .slice start)
    let stop := clampIndex items.length (← integerArgument .slice stop)
    return .list ((items.take stop).drop start)

/-- The items of a list, each in a pair behind its index. -/
def enumerateItems (v : Value) : Result := do
  let items ← listArgument .enumerate v
  return .list (items.zipIdx.map fun (item, i) => .list [.ofNat i, item])

/-! ### All functions -/

/-- Calls a function. -/
def Builtin.call (f : Builtin) (args : List Value) : Result :=
  match f with
  | .len => oneArgument f args lengthOf
  | .str => oneArgument f args fun v => .ok (.str v.text)
  | .int => oneArgument f args toInt
  | .float => oneArgument f args toFloat
  | .bool => oneArgument f args fun v => .ok (.bool v.isTruthy)
  | .range => rangeOf args
  | .upper => onString f args fun s => .str (Text.upper s)
  | .lower => onString f args fun s => .str (Text.lower s)
  | .strip => onString f args fun s => .str (Text.trimString s)
  | .title => onString f args fun s => .str (Text.title s)
  | .replace => replaceText args
  | .split => splitText args
  | .join => joinTexts args
  | .startsWith => onStrings f args fun text start => .bool (Text.dropStart? start text).isSome
  | .endsWith => onStrings f args fun text ending => .bool (Text.dropEnd? ending text).isSome
  | .abs => oneArgument f args absolute
  | .min => extremum f .lt args
  | .max => extremum f .gt args
  | .round => roundNumber args
  | .floor => oneArgument f args fun v => do
    return .int (Rounding.down.toInt64 (← numberArgument f v))
  | .ceil => oneArgument f args fun v => do
    return .int (Rounding.up.toInt64 (← numberArgument f v))
  | .sum => sumOf args
  | .sorted => sortItems args
  | .reversed => oneArgument f args reverseOf
  | .first => oneArgument f args fun v => do
    return (← listArgument f v).head?.getD .nothing
  | .last => oneArgument f args fun v => do
    return (← listArgument f v).getLast?.getD .nothing
  | .slice => sliceItems args
  | .enumerate => oneArgument f args enumerateItems

end MarkupTemplate.Host
