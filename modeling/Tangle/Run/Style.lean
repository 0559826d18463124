import Tangle.Number.Decimal
import Tangle.Text.Line
import Tangle.Text.Scalar

namespace Tangle.Run

open Text

inductive Style
  | header
  | path
  | count
  | warning
  | error
  | dim
  | divider
  deriving DecidableEq, Repr

namespace Style

def codes : Style → Text
  | header => "1"
  | path => "36"
  | count => "1;32"
  | warning => "33"
  | error => "91"
  | dim => "90"
  | divider => "90"

def escape : Text := "\x1b["

def paint (style : Style) (line : Text) : Text :=
  escape ++ style.codes ++ "m" ++ line ++ escape ++ "0m"

def spreadTabs (t : Text) : Text := t.flatMap fun b => if b = tab then "    " else [b]

def fill (width : Nat) (line : Text) : Text :=
  List.replicate (width - line.pieces.length) space

def render (style : Style) (colour : Bool) (t : Text) : Text :=
  let lines := split lf (unixEnds (spreadTabs t))
  let width := lines.foldl (fun n line => max n line.pieces.length) 0
  join [lf] (lines.map fun line =>
    (if colour then style.paint line else line) ++ fill width line)

end Style

end Tangle.Run
