import MarkupTemplate.Json.Basic
import MarkupTemplate.Numeric.Reading

/-!
# Reading JSON

One function per production; each returns the value and the rest of the text. A number without point
and exponent is a whole number if 64 bits hold it. Any other number is read quickly, not exactly: its
first digits, as many as 64 bits hold, are scaled by a power of ten, with one rounding for each step.

What is well-formed but stands for no value is read as `Json.unfit`: a number out of range, a string
with half of a pair of words, and arrays and objects around each other deeper than `depthLimit`, which
are passed over with a list of the brackets to close. `Json.read?` admits such parts, for a reader that
passes over members it does not know; `Json.parse?` does not.
-/

namespace MarkupTemplate.Json

open MarkupTemplate.Numeric

/-- Blanks between tokens. -/
def isGap (c : Char) : Bool :=
  c == ' ' || c == '\n' || c == '\t' || c == '\r'

/-- The text after leading blanks. -/
def skipGap (cs : List Char) : List Char :=
  cs.dropWhile isGap

/-- The text after `word`, if it begins so. -/
def after? : List Char → List Char → Option (List Char)
  | [], cs => some cs
  | w :: word, c :: cs => if w == c then after? word cs else none
  | _ :: _, [] => none

/-! ### Numbers -/

/-- The largest number of 64 bits. -/
def maxWord : Nat := UInt64.size - 1

/-- Adds digits to a significand as long as 64 bits hold it: the significand, the digits taken and
the digits left out. -/
def takeDigits (significand taken : Nat) : List Char → Nat × Nat × Nat
  | [] => (significand, taken, 0)
  | c :: rest =>
    let next := 10 * significand + (c.toNat - 48)
    if maxWord < next then (significand, taken, rest.length + 1)
    else takeDigits next (taken + 1) rest

/-- Divides by the largest power of ten in range until the exponent is within reach. -/
def scaleDown : Nat → Float → Int → Float
  | 0, x, _ => x
  | fuel + 1, x, exponent =>
    if -308 ≤ exponent then x / nearestFloat 1 (-exponent)
    else if x == 0.0 then x
    else scaleDown fuel (x / 1e308) (exponent + 308)

/-- `significand * 10 ^ exponent`, if it is in range. -/
def scale? (significand : Nat) (exponent : Int) : Option Float :=
  let x := Float.ofNat significand
  if exponent < 0 then some (scaleDown 4 x exponent)
  else if 308 < exponent then if x == 0.0 then some x else none
  else
    let scaled := x * nearestFloat 1 exponent
    if scaled == infinity then none else some scaled

/-- The digits of an exponent with its sign, after the letter, and the rest. -/
def exponent? (cs : List Char) : Option (Int × List Char) :=
  let (negative, rest) := splitSign cs
  let digits := rest.takeWhile Char.isDigit
  if digits.isEmpty then none
  else
    let size : Int := digitsValue digits
    some (if negative then -size else size, rest.dropWhile Char.isDigit)

/-- `significand * 10 ^ exponent` with a sign; out of range it is no value. -/
def scaled (negative : Bool) (significand : Nat) (exponent : Int) : Json :=
  (scale? significand exponent).elim unfit fun x => float (if negative then -x else x)

/-- What follows the digits of a number, and their value. -/
def power? (negative : Bool) (significand : Nat) (exponent : Int) (cs : List Char) :
    Option (Json × List Char) :=
  match cs with
  | c :: rest =>
    if c = 'e' ∨ c = 'E' then
      (exponent? rest).map fun (power, rest) => (scaled negative significand (exponent + power), rest)
    else some (scaled negative significand exponent, cs)
  | [] => some (scaled negative significand exponent, [])

/-- A number without its sign. -/
def magnitude? (negative : Bool) (cs : List Char) : Option (Json × List Char) :=
  let whole := cs.takeWhile Char.isDigit
  let rest := cs.dropWhile Char.isDigit
  if whole.isEmpty || (whole.length > 1 && whole.head? == some '0') then none
  else
    let (significand, _, dropped) := takeDigits 0 0 whole
    match rest with
    | '.' :: after =>
      let fraction := after.takeWhile Char.isDigit
      if fraction.isEmpty then none
      else
        let (significand, taken, _) := takeDigits significand 0 fraction
        power? negative significand (dropped - taken) (after.dropWhile Char.isDigit)
    | c :: _ =>
      if c = 'e' ∨ c = 'E' ∨ 0 < dropped then power? negative significand dropped rest
      else some (wholeNumber negative significand, rest)
    | [] =>
      if 0 < dropped then power? negative significand dropped rest
      else some (wholeNumber negative significand, rest)
where
  /-- A whole number; below the signed range, and at minus zero, a float. -/
  wholeNumber (negative : Bool) (n : Nat) : Json :=
    if !negative then int n
    else if n = 0 ∨ UInt64.size / 2 < n then float (-(Float.ofNat n))
    else int (-n)

/-- A number. -/
def number? : List Char → Option (Json × List Char)
  | '-' :: rest => magnitude? true rest
  | cs => magnitude? false cs

/-! ### Strings -/

/-- The value of a hexadecimal digit. -/
def hexDigit? (c : Char) : Option Nat :=
  if c.isDigit then some (c.toNat - 48)
  else if 'a' ≤ c ∧ c ≤ 'f' then some (c.toNat - 87)
  else if 'A' ≤ c ∧ c ≤ 'F' then some (c.toNat - 55)
  else none

/-- Four hexadecimal digits. -/
def hexWord? : List Char → Option (Nat × List Char)
  | a :: b :: c :: d :: rest => do
    let a ← hexDigit? a
    let b ← hexDigit? b
    let c ← hexDigit? c
    let d ← hexDigit? d
    some (4096 * a + 256 * b + 16 * c + d, rest)
  | _ => none

/-- A word that is the first half of a pair. -/
def isHighHalf (word : Nat) : Bool := 0xd800 ≤ word && word ≤ 0xdbff

/-- A word that is the second half of a pair. -/
def isLowHalf (word : Nat) : Bool := 0xdc00 ≤ word && word ≤ 0xdfff

/-- An escaped second half of a pair. -/
def lowHalf? (cs : List Char) : Option (Nat × List Char) := do
  let (word, rest) ← hexWord? (← after? ['\\', 'u'] cs)
  if isLowHalf word then some (word, rest) else none

/-- The character after `\u`: one word, or two that form a pair. A half by itself is none. -/
def escapedChar? (cs : List Char) : Option (Option Char × List Char) :=
  (hexWord? cs).map fun (word, rest) =>
    if isHighHalf word then
      match lowHalf? rest with
      | some (low, rest) => (some (Char.ofNat (0x10000 + 1024 * (word - 0xd800) + (low - 0xdc00))), rest)
      | none => (none, rest)
    else if isLowHalf word then (none, rest)
    else (some (Char.ofNat word), rest)

/-- One character of a string, written as itself or escaped; not the closing quote. -/
def stringChar? : List Char → Option (Option Char × List Char)
  | '\\' :: c :: rest =>
    if c = 'u' then escapedChar? rest
    else if c = '"' ∨ c = '\\' ∨ c = '/' then some (some c, rest)
    else if c = 'b' then some (some (Char.ofNat 8), rest)
    else if c = 'f' then some (some (Char.ofNat 12), rest)
    else if c = 'n' then some (some '\n', rest)
    else if c = 'r' then some (some '\r', rest)
    else if c = 't' then some (some '\t', rest)
    else none
  | c :: rest => if c.toNat < 0x20 ∨ c = '\\' ∨ c = '"' then none else some (some c, rest)
  | [] => none

/-- The characters up to the closing quote; `soFar` holds those before, the last one first, as long as
all are characters. Every one takes at least one of the text's, so the text's length is `fuel`
enough. -/
def stringBody? (soFar : Option (List Char)) : Nat → List Char → Option (Option String × List Char)
  | 0, _ => none
  | fuel + 1, cs =>
    match cs with
    | '"' :: rest => some (soFar.map fun cs => String.ofList cs.reverse, rest)
    | _ => (stringChar? cs).bind fun (c, rest) =>
      stringBody? (soFar.bind fun cs => c.map (· :: cs)) fuel rest

/-- A string in a text of some size; none with half of a pair. -/
def string? (size : Nat) : List Char → Option (Option String × List Char)
  | '"' :: rest => stringBody? (some []) size rest
  | _ => none

/-! ### Values -/

/-- What reads a value: the value and the rest of the text. -/
abbrev Reader (α : Type) := List Char → Option (α × List Char)

/-- A value without parts. -/
def scalar? (size : Nat) : Reader Json := fun cs =>
  match cs with
  | '"' :: _ => (string? size cs).map fun (s, rest) => (s.elim unfit string, rest)
  | 'n' :: _ => (after? ['n', 'u', 'l', 'l'] cs).map fun rest => (null, rest)
  | 't' :: _ => (after? ['t', 'r', 'u', 'e'] cs).map fun rest => (bool true, rest)
  | 'f' :: _ => (after? ['f', 'a', 'l', 's', 'e'] cs).map fun rest => (bool false, rest)
  | _ => number? cs

/-- A name and the colon behind it. -/
def memberName? (size : Nat) : Reader (Option String) := fun cs => do
  let (name, rest) ← string? size cs
  match skipGap rest with
  | ':' :: rest => some (name, skipGap rest)
  | _ => none

/-! ### Values passed over -/

/-- What encloses the place in a text. -/
inductive Bracket where
  | array
  | object
  deriving DecidableEq, Repr

/-- What closes an array or object. -/
def Bracket.close : Bracket → Char
  | .array => ']'
  | .object => '\x7d'

/-- Behind a value: the brackets that stay open, the inner ones first, and the next item of the
innermost of them. -/
def pastClosed? : List Bracket → Reader (List Bracket)
  | [], cs => some ([], cs)
  | bracket :: around, cs =>
    match skipGap cs with
    | c :: rest =>
      if c = bracket.close then pastClosed? around rest
      else if c = ',' then some (bracket :: around, skipGap rest)
      else none
    | [] => none

/-- Behind an opening bracket: either its first item comes or it closes again. -/
def pastOpened? (bracket : Bracket) (around : List Bracket) : Reader (List Bracket) := fun cs =>
  match skipGap cs with
  | c :: rest =>
    if c = bracket.close then pastClosed? around rest else some (bracket :: around, c :: rest)
  | [] => none

/-- Passes over an item up to the next one, which may be the first item in this one. -/
def pastItem? (size : Nat) (around : List Bracket) : Reader (List Bracket) := fun cs => do
  let value ← if around.head? = some .object then (·.2) <$> memberName? size cs else some cs
  match value with
  | '[' :: rest => pastOpened? .array around rest
  | '\x7b' :: rest => pastOpened? .object around rest
  | _ => pastClosed? around (← scalar? size value).2

/-- The text behind an item and all that encloses it. Every item takes at least one character, so the
text's length is `fuel` enough. -/
def past? (size : Nat) : Nat → List Bracket → List Char → Option (List Char)
  | 0, _, _ => none
  | fuel + 1, around, cs =>
    match pastItem? size around cs with
    | some ([], rest) => some rest
    | some (around, rest) => past? size fuel around rest
    | none => none

/-! ### Arrays and objects -/

/-- Items up to `close`, separated by commas; the first one stands at the front. -/
def sequence? {α : Type} (item? : Reader α) (close : Char) : Nat → Reader (List α)
  | 0, _ => none
  | fuel + 1, cs => do
    let (item, rest) ← item? (skipGap cs)
    match skipGap rest with
    | c :: rest =>
      if c = ',' then
        let (items, rest) ← sequence? item? close fuel rest
        some (item :: items, rest)
      else if c = close then some ([item], rest)
      else none
    | [] => none

/-- Items between an opening bracket, already read, and `close`. -/
def enclosed? {α : Type} (size : Nat) (item? : Reader α) (close : Char) : Reader (List α) := fun cs =>
  match skipGap cs with
  | [] => none
  | c :: rest => if c = close then some ([], rest) else sequence? item? close size (c :: rest)

/-- A name and its value. -/
def member? (size : Nat) (value? : Reader Json) : Reader (Option String × Json) := fun cs => do
  let (name, rest) ← memberName? size cs
  let (value, rest) ← value? rest
  some ((name, value), rest)

/-- A value in a text of some size. Arrays and objects that are not among the outer `depth` ones are
passed over. -/
def value? (size : Nat) : Nat → Reader Json
  | 0, cs =>
    match cs with
    | '[' :: _ | '\x7b' :: _ => (past? size size [] cs).map fun rest => (unfit, rest)
    | _ => scalar? size cs
  | depth + 1, cs =>
    match cs with
    | '[' :: rest =>
      (enclosed? size (value? size depth) Bracket.array.close rest).map fun (items, rest) =>
        (ofItems items, rest)
    | '\x7b' :: rest =>
      (enclosed? size (member? size (value? size depth)) Bracket.object.close rest).map
        fun (members, rest) => (ofMembers members, rest)
    | _ => scalar? size cs

/-- How deep arrays and objects may nest. -/
def depthLimit : Nat := 127

/-- The value of a well-formed text, with nothing but blanks around it. Parts may be unfit. -/
def read? (text : String) : Option Json := do
  let cs := text.toList
  let (value, rest) ← value? (cs.length + 1) depthLimit (skipGap cs)
  if (skipGap rest).isEmpty then some value else none

/-- The value that a text stands for. -/
def parse? (text : String) : Option Json :=
  (read? text).filter fits

end MarkupTemplate.Json
