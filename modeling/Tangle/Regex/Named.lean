import Tangle.Regex.Basic
import Tangle.Text.Category
import Tangle.Text.Script

namespace Tangle.Regex

def digits : CharSet := [(48, 57)]

def wordChars : CharSet := [(48, 57), (65, 90), (95, 95), (97, 122)]

def spaces : CharSet := [(9, 10), (12, 13), (32, 32)]

/-- The class after a backslash: a capital letter means the complement. -/
def escapeClass? : Char → Option ClassItem
  | 'd' => some { set := digits }
  | 'D' => some { set := digits, negated := true }
  | 's' => some { set := spaces }
  | 'S' => some { set := spaces, negated := true }
  | 'w' => some { set := wordChars }
  | 'W' => some { set := wordChars, negated := true }
  | _ => none

def bracketClasses : List (String × CharSet) := [
  ("alnum", [(48, 57), (65, 90), (97, 122)]),
  ("alpha", [(65, 90), (97, 122)]),
  ("ascii", [(0, 127)]),
  ("blank", [(9, 9), (32, 32)]),
  ("cntrl", [(0, 31), (127, 127)]),
  ("digit", digits),
  ("graph", [(33, 126)]),
  ("lower", [(97, 122)]),
  ("print", [(32, 126)]),
  ("punct", [(33, 47), (58, 64), (91, 96), (123, 126)]),
  ("space", [(9, 13), (32, 32)]),
  ("upper", [(65, 90)]),
  ("word", wordChars),
  ("xdigit", [(48, 57), (65, 70), (97, 102)])]

def property? (name : Text) : Option CharSet :=
  if name = "Any" then some [(0, 0x10FFFF)]
  else
    match Text.Category.named.find? fun (n, _) => Text.ofString n = name with
    | some (_, set) => some set
    | none => (Text.Script.named.find? fun (n, _) => Text.ofString n = name).map (·.2)

end Tangle.Regex
