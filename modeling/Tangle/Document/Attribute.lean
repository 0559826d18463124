import Tangle.Text.Blank

namespace Tangle

def literateMark : Text := "lit-"

namespace Fence

def startsGroup (before : Option UInt8) (t : Text) : Bool :=
  t.startsWith literateMark &&
    match before with
    | none => true
    | some b => b == Text.space || b == Text.tab || b == Text.backtick

def groupStartsFrom (before : Option UInt8) (offset : Nat) : Text → List Nat
  | [] => []
  | b :: t =>
    let later := groupStartsFrom (some b) (offset + 1) t
    if startsGroup before (b :: t) then offset :: later else later

def groupStarts (line : Text) : List Nat := groupStartsFrom none 0 line

def splitGroups (before : Option UInt8) : Text → Text × List Text
  | [] => ([], [])
  | b :: t =>
    let (lead, groups) := splitGroups (some b) t
    if startsGroup before (b :: t) then ([], (b :: lead) :: groups) else (b :: lead, groups)

def groups (line : Text) : List Text := (splitGroups none line).2

def plain (line : Text) : Text := ((splitGroups none line).1).trimEndWhile fun b =>
  b == Text.space || b == Text.tab

end Fence

/-- Attributes by key; no key occurs twice. -/
abbrev Attributes := List (Text × Text)

namespace Attributes

def get (attrs : Attributes) (key : Text) : Text := (attrs.lookup key).getD []

def set (attrs : Attributes) (key value : Text) : Attributes :=
  (key, value) :: attrs.filter (·.1 ≠ key)

/-- The key and value of a group. A group without a colon or without a key says nothing. The value
of `file` keeps its colons; every other value ends at the next one. -/
def ofGroup? (group : Text) : Option (Text × Text) :=
  match Text.cutByte Text.colon (group.drop literateMark.length) with
  | none => none
  | some (key, value) =>
    let key := key.trim
    if key = [] then none
    else if key = "file" then some (key, value.trim)
    else some (key, Text.trim (value.takeWhile (· ≠ Text.colon)))

def ofLine (line : Text) : Attributes :=
  ((Fence.groups line).filterMap ofGroup?).foldl (fun attrs (key, value) => attrs.set key value) []

end Attributes

end Tangle
