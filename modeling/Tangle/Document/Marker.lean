import Tangle.Text.Field

namespace Tangle.Marker

open Text

def word? (word t : Text) : Option Text := after? word (t.dropWhile isSpace)

def opening : Text := "<!--"

def closing : Text := "-->"

/-- The field that runs to the first closing after its first byte. Where there is no such closing, a
blank before the closing is the field. -/
def lastField? (t : Text) : Option (Text × Text) :=
  match t.dropWhile isSpace with
  | [] => none
  | b :: rest =>
    match cut closing rest with
    | some (before, after) => some (trimEndWhile isSpace (b :: before), after)
    | none =>
      match (t.takeWhile isSpace).getLast?, after? closing (b :: rest) with
      | some s, some after => some ([s], after)
      | _, _ => none

def customName? (line : Text) : Option Text := do
  let t ← after? opening line
  let t ← word? "block:" t
  let (name, _) ← lastField? t
  return name

def isCustomEnd (line : Text) : Bool :=
  ((after? opening line).bind (word? "end_block")).bind (word? closing) |>.isSome

structure PullRequest where
  path : Text
  name : Text
  marker : Text
  deriving DecidableEq, Repr

def pullRequest? (line : Text) : Option PullRequest := do
  let t ← after? opening line
  let t ← word? "pull_from:" t
  let (pathField, t) ← cutByte comma t
  let path ← field? pathField
  let t ← word? "block:" t
  let (name, rest) ← lastField? t
  return ⟨path, name, line.take (line.length - rest.length)⟩

def processedWords : Text := "processed: true"

def pull (path name : Text) (processed : Bool) : Text :=
  if processed then
    "<!-- pull_from: " ++ path ++ ", block: " ++ name ++ ", processed: true -->"
  else "<!-- pull_from: " ++ path ++ ", block: " ++ name ++ " -->"

end Tangle.Marker
