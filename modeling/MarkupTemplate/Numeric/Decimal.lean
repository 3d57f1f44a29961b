import MarkupTemplate.Numeric.Binary64

/-!
# The text of a floating-point number

A finite number is written with the fewest decimal digits that read back to it, nearest to it among
those. The digits are searched for in exact arithmetic: the reals that round to `m * 2 ^ q` form an
interval, and for one digit, two digits, … the two neighbours of the number on that decimal grid
are tried. The text is positional: it has no exponent, and a whole number has no point.
-/

namespace MarkupTemplate.Numeric

/-- A positive decimal number `digits * 10 ^ exponent`. -/
structure Decimal where
  digits : Nat
  exponent : Int
  deriving DecidableEq, Repr

/-- Compares `a * 10 ^ i` with `n * 2 ^ j`. -/
def compareScaled (a : Nat) (i : Int) (n : Nat) (j : Int) : Ordering :=
  compare (a * Nat.pow 10 i.toNat * Nat.pow 2 (-j).toNat) (n * Nat.pow 2 j.toNat * Nat.pow 10 (-i).toNat)

/-- The decimal lies among the reals that round to `m * 2 ^ q`: from half the gap below to half the
gap above, the ends included when `m` is even. Below a power of two the gap is half as wide. -/
def readsBack (m : Nat) (q : Int) (d : Decimal) : Bool :=
  let low := if m = Nat.pow 2 52 ∧ q ≠ -1074 then 4 * m - 1 else 4 * m - 2
  let fromBelow := compareScaled d.digits d.exponent low (q - 2)
  let fromAbove := compareScaled d.digits d.exponent (4 * m + 2) (q - 2)
  if m % 2 = 0 then fromBelow != .lt && fromAbove != .gt
  else fromBelow == .gt && fromAbove == .lt

/-- `m * 2 ^ q / 10 ^ unit`, rounded down. -/
def gridBelow (m : Nat) (q unit : Int) : Nat :=
  (m * Nat.pow 2 q.toNat * Nat.pow 10 (-unit).toNat) / (Nat.pow 2 (-q).toNat * Nat.pow 10 unit.toNat)

/-- Which of two neighbours is taken when the number is halfway between them. -/
inductive TieRule where
  | up
  /-- The one whose last digit is even. -/
  | toEven
  deriving DecidableEq, Repr

/-- The lower neighbour is taken, when the middle compares with the number like this and the lower
neighbour has these digits. -/
def TieRule.takesBelow (tie : TieRule) (middle : Ordering) (digits : Nat) : Bool :=
  match middle, tie with
  | .gt, _ => true
  | .lt, _ => false
  | .eq, up => false
  | .eq, toEven => digits % 2 == 0

/-- The neighbour of `m * 2 ^ q` on the grid of `10 ^ unit` that reads back; the nearer of two. -/
def onGrid? (tie : TieRule) (m : Nat) (q unit : Int) : Option Decimal :=
  let below : Decimal := ⟨gridBelow m q unit, unit⟩
  let above : Decimal := ⟨below.digits + 1, unit⟩
  match readsBack m q below, readsBack m q above with
  | true, true =>
    let middle := compareScaled (2 * below.digits + 1) unit (2 * m) q
    if tie.takesBelow middle below.digits then some below else some above
  | true, false => some below
  | false, true => some above
  | false, false => none

/-- The least `k ≥ start` with `m * 2 ^ q < 10 ^ k`, if it is reached within `fuel` steps. -/
def scaleFrom (m : Nat) (q : Int) : Nat → Int → Int
  | 0, start => start
  | fuel + 1, start =>
    if compareScaled 1 start m q == .gt then start else scaleFrom m q fuel (start + 1)

/-- The least `k` with `m * 2 ^ q < 10 ^ k`: just above the estimate that the binary length gives. -/
def scale (m : Nat) (q : Int) : Int :=
  let binary : Int := m.log2 + q
  scaleFrom m q 8 (binary * 30103 / 100000 - 1)

/-- The digits without their trailing zeros. -/
def Decimal.strip : Nat → Decimal → Decimal
  | 0, d => d
  | fuel + 1, d =>
    if d.digits ≠ 0 ∧ d.digits % 10 = 0 then strip fuel ⟨d.digits / 10, d.exponent + 1⟩ else d

/-- The fewest digits that read back to `m * 2 ^ q`; all its digits if seventeen were not enough. -/
def shortest (tie : TieRule) (m : Nat) (q : Int) : Decimal :=
  let k := scale m q
  let found := (List.range 17).findSome? fun (n : Nat) => onGrid? tie m q (k - (n + 1))
  let all : Decimal := ⟨m * Nat.pow 2 q.toNat * Nat.pow 5 (-q).toNat, min q 0⟩
  (found.getD all).strip 800

/-- The decimal digits of a number, the leading one first. -/
def digitsOf (n : Nat) : List Char :=
  Nat.toDigits 10 n

/-- A decimal written without an exponent. -/
def Decimal.positional (d : Decimal) : List Char :=
  let digits := digitsOf d.digits
  if 0 ≤ d.exponent then digits ++ List.replicate d.exponent.toNat '0'
  else
    let places := (-d.exponent).toNat
    if digits.length ≤ places then
      '0' :: '.' :: List.replicate (places - digits.length) '0' ++ digits
    else digits.take (digits.length - places) ++ '.' :: digits.drop (digits.length - places)

/-- The text of a number, without an exponent and without a point for a whole number. Of two shortest
decimals that are equally near the greater one is written. -/
def floatText (x : Float) : String :=
  match parts x with
  | .nan => "NaN"
  | .infinite negative => if negative then "-inf" else "inf"
  | .finite negative m q =>
    let size := if m = 0 then ['0'] else (shortest .up m q).positional
    String.ofList (if negative then '-' :: size else size)

/-- The text of a finite number in notation with an exponent, as data formats write it: positional
from `10 ^ -5` to below `10 ^ 16`, always with a point or an exponent. Of two shortest decimals that are
equally near the even one is written. -/
def floatNotation (x : Float) : String :=
  match parts x with
  | .finite negative m q =>
    let size :=
      if m = 0 then ['0', '.', '0']
      else
        let d := shortest .toEven m q
        let digits := digitsOf d.digits
        let point : Int := digits.length + d.exponent
        if -5 < point ∧ point ≤ 16 then
          if 0 ≤ d.exponent then d.positional ++ ['.', '0'] else d.positional
        else
          digits.take 1 ++ (if digits.length = 1 then [] else '.' :: digits.drop 1) ++
            'e' :: (toString (point - 1)).toList
    String.ofList (if negative then '-' :: size else size)
  | _ => floatText x

end MarkupTemplate.Numeric
