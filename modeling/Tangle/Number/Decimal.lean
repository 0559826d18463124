import Tangle.Text.Basic

namespace Tangle.Decimal

open Text

def digits (n : Nat) : Text := (Nat.toDigits 10 n).map fun c => c.toNat.toUInt8

def ofInt : Int → Text
  | .ofNat n => digits n
  | .negSucc n => "-" ++ digits (n + 1)

def ofNat (n : Nat) : Text := digits n

def isDigit (b : UInt8) : Bool := 48 ≤ b && b ≤ 57

def value (t : Text) : Nat := t.foldl (fun n b => 10 * n + (b.toNat - 48)) 0

def sign : Text → Bool × Text
  | 43 :: t => (false, t)
  | 45 :: t => (true, t)
  | t => (false, t)

def wordBound : Int := 0x8000000000000000

def fits (n : Int) : Bool := -wordBound ≤ n && n < wordBound

def toInt? (t : Text) : Option Int :=
  let (negative, body) := sign t
  if body ≠ [] ∧ body.all isDigit then
    let n : Int := if negative then -(value body : Int) else value body
    if fits n then some n else none
  else none

end Tangle.Decimal
