import Tangle.Block.Basic
import Tangle.Path
import Tangle.Regex.Parser
import Tangle.Text.Quoted

namespace Tangle.Selection

def lists (base : Base) (paths : List Text) (p : Text) : Bool :=
  (paths.map base.resolve).contains (base.resolve p)

def mentions (base : Base) (paths : List Text) (out : Output) : Bool :=
  lists base paths out.path || lists base paths out.source

/-- Keeps the outputs that are included, where an empty list includes all, and not ignored. -/
def apply (base : Base) (included ignored : List Text) (outputs : List Output) : List Output :=
  outputs.filter fun out =>
    (included.isEmpty || mentions base included out) && !mentions base ignored out

structure BadPattern where
  pattern : Text
  error : Regex.ParseError
  deriving DecidableEq, Repr

def BadPattern.message (b : BadPattern) : Text :=
  "invalid document pattern " ++ b.pattern.quoted ++ ": " ++ b.error.message

def hasTarget (base : Base) (target : Text) (out : Output) : Bool :=
  target.isEmpty || base.same out.path target || out.target == target

def narrow (base : Base) (target pattern : Text) (outputs : List Output) :
    Except BadPattern (List Output) :=
  if pattern.isEmpty then .ok (outputs.filter (hasTarget base target))
  else
    match Regex.parse pattern with
    | .error e => .error ⟨pattern, e⟩
    | .ok r => .ok (outputs.filter fun out => hasTarget base target out && r.matchesIn out.source)

end Tangle.Selection
