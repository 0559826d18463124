import Tangle.Number.Decimal
import Tangle.Text.Quoted

namespace Tangle.Literal

open Text

inductive Fault
  | malformed
  | range
  deriving DecidableEq, Repr

def Fault.message : Fault → Text
  | .malformed => "invalid syntax"
  | .range => "value out of range"

def lower (b : UInt8) : UInt8 := if 65 ≤ b ∧ b ≤ 90 then b + 32 else b

def base : Text → Nat × Text
  | 48 :: m :: d :: t =>
    if lower m = 98 then (2, d :: t)
    else if lower m = 111 then (8, d :: t)
    else if lower m = 120 then (16, d :: t)
    else (8, m :: d :: t)
  | 48 :: t => (8, t)
  | t => (10, t)

def digit? (base : Nat) (b : UInt8) : Option Nat :=
  let d :=
    if 48 ≤ b ∧ b ≤ 57 then b.toNat - 48
    else if 97 ≤ lower b ∧ lower b ≤ 122 then (lower b).toNat - 87
    else base
  if d < base then some d else none

/-- Reads digits from the left. A value that leaves 64 bits is out of range at once, whatever
follows. -/
def magnitude (base : Nat) : (n : Nat) → Text → Except Fault Nat
  | n, [] => .ok n
  | n, b :: t =>
    if b = 95 then magnitude base n t
    else
      match digit? base b with
      | none => .error .malformed
      | some d =>
        if 0x10000000000000000 ≤ n * base + d then .error .range
        else magnitude base (n * base + d) t

/-- Whether each underscore has a digit, or the base mark, before it and a digit after it.
`afterDigit` and `afterLine` describe the byte before. -/
def separatorsFit (hex : Bool) (afterDigit afterLine : Bool) : Text → Bool
  | [] => !afterLine
  | b :: t =>
    if (48 ≤ b && b ≤ 57) || (hex && 97 ≤ lower b && lower b ≤ 102) then
      separatorsFit hex true false t
    else if b = 95 then afterDigit && separatorsFit hex false true t
    else !afterLine && separatorsFit hex false false t

def underscoresFit : Text → Bool
  | 48 :: m :: t =>
    if lower m = 98 ∨ lower m = 111 ∨ lower m = 120 then separatorsFit (lower m = 120) true false t
    else separatorsFit false false false (48 :: m :: t)
  | t => separatorsFit false false false t

def toInt (t : Text) : Except Fault Int :=
  let (negative, body) := Decimal.sign t
  if body = [] then .error .malformed
  else
    let (base, digits) := base body
    match magnitude base 0 digits with
    | .error f => .error f
    | .ok n =>
      if 95 ∈ digits ∧ !underscoresFit body then .error .malformed
      else
        let n : Int := if negative then -(n : Int) else n
        if Decimal.fits n then .ok n else .error .range

def truths : List Text := ["1", "t", "T", "TRUE", "true", "True"]

def falsehoods : List Text := ["0", "f", "F", "FALSE", "false", "False"]

def toBool (t : Text) : Except Fault Bool :=
  if truths.contains t then .ok true
  else if falsehoods.contains t then .ok false
  else .error .malformed

end Tangle.Literal
