import Tangle.Number.Decimal

namespace Tangle

/-- A finite number is `significand * 2 ^ scale`. -/
inductive Double
  | notANumber
  | infinite (negative : Bool)
  | finite (negative : Bool) (significand : Nat) (scale : Int)
  deriving DecidableEq, Repr

namespace Double

open Text

def nearest (num den : Nat) : Nat :=
  let q := num / den
  let r := num % den
  if 2 * r < den ∨ (2 * r = den ∧ q % 2 = 0) then q else q + 1

def significandBound : Nat := 0x20000000000000

def leastSignificand : Nat := 0x10000000000000

def smallestScale : Int := -1074

def largestScale : Int := 971

def twoTo (n : Int) : Nat := Nat.pow 2 n.toNat

def tenTo (n : Int) : Nat := Nat.pow 10 n.toNat

def ofDecimal (negative : Bool) (digits : Nat) (exponent : Int) : Double :=
  let size := (Decimal.digits digits).length + exponent
  if digits = 0 ∨ size < -330 then finite negative 0 smallestScale
  else if 310 < size then infinite negative
  else
    let num := digits * tenTo exponent
    let den := tenTo (-exponent)
    let quotient (scale : Int) := (num * twoTo (-scale), den * twoTo scale)
    let guess : Int := (num.log2 : Int) - den.log2 - 53
    let (n, d) := quotient guess
    let scale := if n / d < significandBound then guess else guess + 1
    let scale := max scale smallestScale
    let (n, d) := quotient scale
    let m := nearest n d
    let (m, scale) := if m = significandBound then (leastSignificand, scale + 1) else (m, scale)
    if largestScale < scale then infinite negative else finite negative m scale

def compareScaled (a : Nat) (i : Int) (n : Nat) (j : Int) : Ordering :=
  compare (a * tenTo i * twoTo (-j)) (n * twoTo j * tenTo (-i))

/-- Whether `digits * 10 ^ exponent` is nearer to `m * 2 ^ scale` than to any other number. -/
def readsBack (m : Nat) (scale : Int) (digits : Nat) (exponent : Int) : Bool :=
  let low := if m = leastSignificand ∧ smallestScale < scale then 4 * m - 1 else 4 * m - 2
  let even := m % 2 == 0
  let fromLow := compareScaled digits exponent low (scale - 2)
  let fromHigh := compareScaled digits exponent (4 * m + 2) (scale - 2)
  (fromLow == .gt || (even && fromLow == .eq)) && (fromHigh == .lt || (even && fromHigh == .eq))

def onGrid (m : Nat) (scale exponent : Int) : Option (Nat × Int) :=
  let num := m * twoTo scale * tenTo (-exponent)
  let den := twoTo (-scale) * tenTo exponent
  let near := nearest num den
  let other := if near = num / den then near + 1 else num / den
  if readsBack m scale near exponent then some (near, exponent)
  else if readsBack m scale other exponent then some (other, exponent)
  else none

/-- The fewest decimal digits, and the power of ten that they count, of a number other than zero. -/
def shortest (m : Nat) (scale : Int) : Nat × Int :=
  let whole := (Decimal.digits (m * twoTo scale)).length
  let divisor := (Decimal.digits (twoTo (-scale))).length
  let grids := (List.range 21).map fun n => (whole : Int) - divisor + 1 - (n : Nat)
  (grids.findSome? (onGrid m scale)).getD (m, 0)

def significant (m : Nat) (scale : Int) : Text × Int :=
  if m = 0 then ("0", 1)
  else
    let (n, exponent) := shortest m scale
    let all := Decimal.digits n
    (trimEndWhile (· == 48) all, all.length + exponent)

def zeros (n : Int) : Text := List.replicate n.toNat 48

def placed (digits : Text) (point : Int) : Text :=
  if point ≤ 0 then "0." ++ zeros (-point) ++ digits
  else if digits.length ≤ point then digits ++ zeros (point - digits.length)
  else digits.take point.toNat ++ "." ++ digits.drop point.toNat

def special : Double → Text
  | notANumber => "NaN"
  | infinite true => "-Inf"
  | infinite false => "+Inf"
  | finite _ _ _ => []

def sign (negative : Bool) : Text := if negative then "-" else []

def positional : Double → Text
  | finite negative m scale =>
    let (digits, point) := significant m scale
    sign negative ++ if m = 0 then digits else placed digits point
  | d => special d

/-- With an exponent for numbers from a million on and below a ten-thousandth. -/
def general : Double → Text
  | finite negative m scale =>
    let (digits, point) := significant m scale
    let e := point - 1
    sign negative ++
      if m = 0 then digits
      else if e < -4 ∨ 6 ≤ e then
        let fraction := if 1 < digits.length then "." ++ digits.drop 1 else []
        let size := Decimal.digits e.natAbs
        digits.take 1 ++ fraction ++ (if e < 0 then "e-" else "e+") ++
          zeros (2 - size.length) ++ size
      else placed digits point
  | d => special d

/-- The integer toward zero; what does not fit 64 bits becomes the least of them. -/
def truncate : Double → Int
  | finite negative m scale =>
    let n : Nat := m * twoTo scale / twoTo (-scale)
    let n : Int := if negative then -(n : Int) else n
    if Decimal.fits n then n else -Decimal.wordBound
  | _ => -Decimal.wordBound

def isZero : Double → Bool
  | finite _ m _ => m == 0
  | _ => false

end Double

end Tangle
