import Tangle.Text.Basic

namespace Tangle.Path

open Text

def isAbsolute (p : Text) : Bool := p.head? == some slash

def parts (p : Text) : List Text := (p.split slash).filter (· ≠ [])

/-- Adds one part to the parts before it, which are given last first. A `..` takes back the part
before it; at the root it goes nowhere. -/
def push (rooted : Bool) (before : List Text) (part : Text) : List Text :=
  if part = "." then before
  else if part = ".." then
    match before with
    | [] => if rooted then [] else [".."]
    | top :: rest => if top = ".." then ".." :: before else rest
  else part :: before

def components (p : Text) : List Text := ((parts p).foldl (push (isAbsolute p)) []).reverse

def render (rooted : Bool) (components : List Text) : Text :=
  match rooted, components with
  | true, cs => slash :: join [slash] cs
  | false, [] => "."
  | false, cs => join [slash] cs

def clean (p : Text) : Text := render (isAbsolute p) (components p)

def append (dir p : Text) : Text :=
  match dir, p with
  | [], [] => []
  | [], p => clean p
  | dir, [] => clean dir
  | dir, p => clean (dir ++ slash :: p)

def directory (p : Text) : Text :=
  match cutLast slash p with
  | some (before, _) => clean (before ++ [slash])
  | none => "."

def dropCommon : List Text → List Text → List Text × List Text
  | a :: as, b :: bs => if a = b then dropCommon as bs else (a :: as, b :: bs)
  | as, bs => (as, bs)

def relative? (base target : Text) : Option Text :=
  if isAbsolute base ≠ isAbsolute target then none
  else
    let (up, down) := dropCommon (components base) (components target)
    if up.head? = some ↑".." then none
    else some (render false (up.map (fun _ => ofString "..") ++ down))

def against (dir p : Text) : Text := if isAbsolute p then clean p else append dir p

def absolute (cwd p : Text) : Text := against cwd p

end Tangle.Path

namespace Tangle

structure Base where
  path : Text
  deriving DecidableEq, Repr

namespace Base

def ofPath (cwd p : Text) : Base := ⟨Path.clean (Path.absolute cwd p)⟩

def resolve (base : Base) (p : Text) : Text := Path.against base.path p

/-- The path as shown to a reader: relative when it lies under the base, else as written. -/
def display (base : Base) (p : Text) : Text :=
  match Path.relative? base.path (base.resolve p) with
  | some rel => if rel.startsWith ".." then p else rel
  | none => p

def same (base : Base) (p q : Text) : Bool := base.resolve p == base.resolve q

end Base

end Tangle
