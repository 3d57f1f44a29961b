import MarkupTemplate.Numeric.Binary64

/-!
# Reading numbers

The forms in which numbers are accepted: a 64-bit integer is digits after an optional sign; a
natural number may carry a plus sign; a floating-point number has digits with an optional point and
an optional exponent, or is an infinity or no number, by name. Nothing else may stand in the text.
-/

namespace MarkupTemplate.Numeric

/-- The number that decimal digits denote. -/
def digitsValue (digits : List Char) : Nat :=
  digits.foldl (fun n c => 10 * n + (c.toNat - 48)) 0

/-- A number written in decimal digits alone, at least one. -/
def readDigits? (cs : List Char) : Option Nat :=
  if !cs.isEmpty && cs.all Char.isDigit then some (digitsValue cs) else none

/-- A sign, if there is one, and what follows it. -/
def splitSign (cs : List Char) : Bool × List Char :=
  match cs with
  | '-' :: rest => (true, rest)
  | '+' :: rest => (false, rest)
  | _ => (false, cs)

/-- A 64-bit integer. -/
def readInt? (cs : List Char) : Option Int64 :=
  let (negative, rest) := splitSign cs
  (readDigits? rest).bind fun n => int64? (if negative then -n else n)

/-- A position: digits after an optional plus sign, below `2 ^ 64`. -/
def readIndex? (cs : List Char) : Option Nat :=
  let digits := match cs with
    | '+' :: rest => rest
    | _ => cs
  (readDigits? digits).filter (· < UInt64.size)

/-- The float nearest to `mantissa * 10 ^ exponent`. Powers beyond the range of floats are settled
by the number of digits. -/
def nearestFloat (mantissa : Nat) (exponent : Int) : Float :=
  let size : Int := (Nat.toDigits 10 mantissa).length + exponent
  if mantissa = 0 then 0.0
  else if 400 < size then infinity
  else if size < -400 then 0.0
  else if exponent < 0 then Float.ofScientific mantissa true exponent.natAbs
  else Float.ofScientific mantissa false exponent.natAbs

/-- The exponent part of a number, empty or `e`, an optional sign and digits. -/
def readExponent? (cs : List Char) : Option Int :=
  match cs with
  | [] => some 0
  | c :: rest =>
    if c = 'e' ∨ c = 'E' then
      let (negative, digits) := splitSign rest
      (readDigits? digits).map fun n => if negative then -(n : Int) else n
    else none

/-- The size of a number written with digits, or by name in any case. -/
def readMagnitude? (cs : List Char) : Option Float :=
  let name := String.ofList (cs.map Char.toLower)
  if name = "inf" ∨ name = "infinity" then some infinity
  else if name = "nan" then some notANumber
  else
    let whole := cs.takeWhile Char.isDigit
    let rest := cs.dropWhile Char.isDigit
    let (fraction, rest) := match rest with
      | '.' :: after => (after.takeWhile Char.isDigit, after.dropWhile Char.isDigit)
      | _ => ([], rest)
    if whole.isEmpty && fraction.isEmpty then none
    else
      (readExponent? rest).map fun e =>
        nearestFloat (digitsValue (whole ++ fraction)) (e - fraction.length)

/-- A floating-point number. -/
def readFloat? (cs : List Char) : Option Float :=
  let (negative, rest) := splitSign cs
  (readMagnitude? rest).map fun x => if negative then -x else x

end MarkupTemplate.Numeric
