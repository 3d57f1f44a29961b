/-!
# Floating-point numbers as mantissa and exponent

A `Float` is taken apart into sign, mantissa and power of two, so that rounding to whole numbers is
exact integer arithmetic. Conversions to 64-bit integers stop at the ends of the range.
-/

namespace MarkupTemplate.Numeric

/-- A number taken apart; a finite one is `mantissa * 2 ^ exponent`, with a sign. -/
inductive Parts where
  | nan
  | infinite (negative : Bool)
  | finite (negative : Bool) (mantissa : Nat) (exponent : Int)
  deriving DecidableEq, Repr

/-- Takes a number apart by its bits. -/
def parts (x : Float) : Parts :=
  let bits := x.toBits.toNat
  let negative := Nat.pow 2 63 ≤ bits
  let biased : Nat := bits / Nat.pow 2 52 % Nat.pow 2 11
  let fraction : Nat := bits % Nat.pow 2 52
  if biased = 2047 then if fraction = 0 then .infinite negative else .nan
  else if biased = 0 then .finite negative fraction (-1074)
  else .finite negative (Nat.pow 2 52 + fraction) ((biased : Int) - 1075)

/-- Positive infinity. -/
def infinity : Float := Float.ofBits 0x7ff0000000000000

/-- A number that is none. -/
def notANumber : Float := Float.ofBits 0x7ff8000000000000

/-- The sign bit is set. -/
def isNegative (x : Float) : Bool :=
  Nat.pow 2 63 ≤ x.toBits.toNat

/-- A way to reach a whole number. -/
inductive Rounding where
  | down
  | up
  | towardZero
  /-- To the nearest, a half away from zero. -/
  | nearest
  deriving DecidableEq, Repr

/-- `±mantissa / 2 ^ places` as a whole number. -/
def Rounding.quotient (rule : Rounding) (negative : Bool) (mantissa places : Nat) : Int :=
  let below := mantissa / Nat.pow 2 places
  let above := if mantissa % Nat.pow 2 places = 0 then below else below + 1
  let size :=
    match rule with
    | .down => if negative then above else below
    | .up => if negative then below else above
    | .towardZero => below
    | .nearest => (2 * mantissa + Nat.pow 2 places) / (2 * Nat.pow 2 places)
  if negative then -size else size

/-- `±mantissa * 2 ^ exponent` as a whole number. -/
def Rounding.whole (rule : Rounding) (negative : Bool) (mantissa : Nat) (exponent : Int) : Int :=
  if 0 ≤ exponent then
    let size : Int := mantissa * Nat.pow 2 exponent.toNat
    if negative then -size else size
  else rule.quotient negative mantissa (-exponent).toNat

/-- The nearest end of the 64-bit range, or the number itself inside it. -/
def saturate (n : Int) : Int64 :=
  if n < Int64.minValue.toInt then Int64.minValue
  else if Int64.maxValue.toInt < n then Int64.maxValue
  else Int64.ofInt n

/-- A number as a 64-bit integer: rounded, stopped at the ends of the range; zero if it is none. -/
def Rounding.toInt64 (rule : Rounding) (x : Float) : Int64 :=
  match parts x with
  | .nan => 0
  | .infinite negative => if negative then Int64.minValue else Int64.maxValue
  | .finite negative m e => saturate (rule.whole negative m e)

/-- A number rounded to a whole number; a zero keeps the sign. -/
def Rounding.toFloat (rule : Rounding) (x : Float) : Float :=
  match parts x with
  | .finite negative m e =>
    if 0 ≤ e then x
    else
      let n := rule.quotient negative m (-e).toNat
      if n = 0 ∧ negative then -0.0 else Float.ofInt n
  | _ => x

/-- The number is finite and has no fraction. -/
def isWhole (x : Float) : Bool :=
  match parts x with
  | .finite _ m e => 0 ≤ e || m % Nat.pow 2 (-e).toNat == 0
  | _ => false

/-- The float nearest to a 64-bit integer. -/
def ofInt64 (n : Int64) : Float :=
  Float.ofInt n.toInt

/-- `n` if it is a 64-bit integer. -/
def int64? (n : Int) : Option Int64 :=
  if Int64.minValue.toInt ≤ n ∧ n ≤ Int64.maxValue.toInt then some (Int64.ofInt n) else none

/-- `base` to a power, by repeated squaring: `result` gathers the factors of the binary digits. -/
def powerLoop : Nat → Float → Float → Nat → Float
  | 0, result, _, _ => result
  | fuel + 1, result, base, n =>
    let result := if n % 2 = 1 then result * base else result
    if n / 2 = 0 then result else powerLoop fuel result (base * base) (n / 2)

/-- `base` to a whole power; a negative power is the reciprocal of the positive one. -/
def power (base : Float) (n : Int) : Float :=
  let size := powerLoop (n.natAbs + 1) 1.0 base n.natAbs
  if n < 0 then 1.0 / size else size

end MarkupTemplate.Numeric
