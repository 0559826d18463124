import Tangle.Text.Basic

namespace Tangle.Text

def isSpace (b : UInt8) : Bool := b == 9 || b == 10 || b == 12 || b == 13 || b == 32

/-- A field without the blanks around it; of a field of blanks only the last is left. -/
def field? (t : Text) : Option Text :=
  match trimEndWhile isSpace (t.dropWhile isSpace) with
  | [] => t.getLast?.map ([·])
  | field => some field

end Tangle.Text
