import Tangle.Block.Basic
import Tangle.Files.Tree
import Tangle.Text.Blank

namespace Tangle.Extract

open Text

inductive Failure
  | unreadable (path : Text) (e : Files.Error)
  | tagNotFound (file tag : Text)
  | tagNotClosed (file tag captured : Text)
  | invalidRange (file : Text) (start stop : Int) (count : Nat)
  deriving DecidableEq, Repr

namespace Failure

def detail (t : Text) : Text := if t = [] then [] else ": " ++ t

def message : Failure → Text
  | unreadable path e => "read " ++ path ++ ": " ++ e.message
  | tagNotFound file tag => file ++ ": tag not found" ++ detail tag
  | tagNotClosed file tag _ => file ++ ": tag region not closed" ++ detail tag
  | invalidRange file start stop count =>
    file ++ ": invalid line range: lines " ++ Decimal.ofInt start ++ "-" ++ Decimal.ofInt stop ++
      " of " ++ Decimal.ofNat count

def captured : Failure → Text
  | tagNotClosed _ _ text => text
  | _ => []

end Failure

def tagMark : Text := "lit-tag:"

/-- Whether some `lit-tag:` of the line has `tag` as the next word. The search goes on after each
occurrence. -/
def isTagMarker (tag line : Text) : Bool :=
  match _ : cut tagMark line with
  | none => false
  | some (_, rest) => (firstWord rest ≠ [] && firstWord rest == tag) || isTagMarker tag rest
termination_by line.length
decreasing_by
  rename_i hcut
  have hpos : 0 < tagMark.length := by decide
  simp only [cut_eq_some hcut, List.length_append]
  omega

def tagged (lines : List Text) (tag file : Text) : Except Failure Text :=
  match lines.dropWhile (!isTagMarker tag ·) with
  | [] => .error (.tagNotFound file tag)
  | _ :: rest =>
    let inside := unlines (rest.takeWhile (!isTagMarker tag ·))
    if rest.any (isTagMarker tag) then .ok inside else .error (.tagNotClosed file tag inside)

/-- Lines `start` to `stop`, counted from 1, both included. A bound of 0 leaves that end open, and an
end past the last line means the last line. -/
def range (lines : List Text) (start stop : Int) (file : Text) : Except Failure Text :=
  let count := lines.length
  let start := if start = 0 then 1 else start
  let stop := if stop = 0 ∨ stop > count then (count : Int) else stop
  if start < 1 ∨ start > stop then
    if count = 0 ∧ start = 1 then .ok [] else .error (.invalidRange file start stop count)
  else .ok (unlines ((lines.take stop.toNat).drop (start.toNat - 1)))

def fetch (files : Files.Tree) (base : Base) (ref : Ref) : Except Failure Text :=
  let file := base.resolve ref.path
  match files.read file with
  | .error e => .error (.unreadable ref.path e)
  | .ok content =>
    let lines := fileLines content
    if ref.tag ≠ [] then tagged lines ref.tag file else range lines ref.lineStart ref.lineEnd file

end Tangle.Extract
