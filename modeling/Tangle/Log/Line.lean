import Tangle.Log
import Tangle.Number.Decimal
import Tangle.Text.Quoted

namespace Tangle.Log

open Text

/-- A quotation mark, a backslash and control characters are escaped; everything else stands for
itself. -/
def escapePiece : Piece → Text
  | .bad _ => "\\ufffd"
  | .char c =>
    let n := c.toNat
    if n = 34 ∨ n = 92 then backslash :: String.utf8EncodeChar c
    else if 0x20 ≤ n then String.utf8EncodeChar c
    else if n = 9 then "\\t"
    else if n = 10 then "\\n"
    else if n = 13 then "\\r"
    else "\\u" ++ hex 4 n

def quotedText (t : Text) : Text := [quote] ++ t.pieces.flatMap escapePiece ++ [quote]

def Value.written : Value → Text
  | text t => quotedText t
  | number n => Decimal.ofInt n
  | flag b => if b then "true" else "false"
  | texts ts => "[" ++ join ", " (ts.map quotedText) ++ "]"

def Entry.line (e : Entry) : Text :=
  let fields := e.fields.map fun (key, v) => quotedText key ++ ": " ++ v.written
  let head := e.level.name ++ "\t" ++ e.message
  if fields = [] then head else head ++ "\t\x7b" ++ join ", " fields ++ "\x7d"

end Tangle.Log
