import Tangle.Text.Category
import Tangle.Text.Scalar

namespace Tangle.Text

def isPrintable (c : Nat) : Bool :=
  if c < 0x80 then 0x20 ≤ c && c < 0x7F
  else
    Category.letter.contains c || Category.mark.contains c || Category.number.contains c ||
    Category.punctuation.contains c || Category.symbol.contains c

def hexDigit (n : Nat) : UInt8 := if n < 10 then (48 + n).toUInt8 else (87 + n).toUInt8

def hex : (width n : Nat) → Text
  | 0, _ => []
  | width + 1, n => hex width (n / 16) ++ [hexDigit (n % 16)]

def letterEscape? (c : Nat) : Option Text :=
  match c with
  | 7 => some "\\a"
  | 8 => some "\\b"
  | 9 => some "\\t"
  | 10 => some "\\n"
  | 11 => some "\\v"
  | 12 => some "\\f"
  | 13 => some "\\r"
  | _ => none

def quotePiece : Piece → Text
  | .bad b => "\\x" ++ hex 2 b.toNat
  | .char c =>
    let n := c.toNat
    if n = 34 ∨ n = 92 then backslash :: String.utf8EncodeChar c
    else if isPrintable n then String.utf8EncodeChar c
    else
      match letterEscape? n with
      | some e => e
      | none =>
        if n < 0x80 then "\\x" ++ hex 2 n
        else if n < 0x10000 then "\\u" ++ hex 4 n
        else "\\U" ++ hex 8 n

def quoted (t : Text) : Text := [quote] ++ t.pieces.flatMap quotePiece ++ [quote]

end Tangle.Text
