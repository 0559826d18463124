import Tangle.Text.Blank
import Tangle.Text.CaseMap
import Tangle.Text.Quoted

namespace Tangle

inductive Policy
  | keep
  | warn
  | error
  /-- A word that names no policy, which leaves it as well. -/
  | other (word : Text)
  deriving DecidableEq, Repr

namespace Policy

def name : Policy → Text
  | keep => "keep"
  | warn => "warn"
  | error => "error"
  | other word => word

def ofWord (word : Text) : Policy :=
  if word = "keep" then keep
  else if word = "warn" then warn
  else if word = "error" then error
  else other word

structure Unknown where
  word : Text
  deriving DecidableEq, Repr

def Unknown.message (u : Unknown) : Text :=
  "unknown unresolved policy " ++ u.word.quoted ++ " (want keep, warn or error)"

def read (word : Text) : Except Unknown Policy :=
  match ofWord word.trim.toLower with
  | other _ => .error ⟨word⟩
  | policy => .ok policy

end Policy

end Tangle
