import Tangle.Block.Basic
import Tangle.Text.Blank
import Tangle.Text.Quoted

namespace Tangle

structure Directive where
  key : Text
  value : Text
  deriving DecidableEq, Repr

def Directive.ofLine? (line : Text) : Option Directive :=
  (Text.cutByte Text.equals line.trim).map fun (key, value) => ⟨key.trim, value.trim⟩

namespace Ref

structure Fault where
  key : Text
  value : Text
  deriving DecidableEq, Repr

def Fault.message (f : Fault) : Text :=
  f.key ++ " must be a positive line number, got " ++ f.value.quoted

def empty : Ref := ⟨[], 0, 0, []⟩

def lineNumber (d : Directive) : Except Fault Int :=
  match Decimal.toInt? d.value with
  | some n => if n < 1 then .error ⟨d.key, d.value⟩ else .ok n
  | none => .error ⟨d.key, d.value⟩

def apply (ref : Ref) (d : Directive) : Except Fault Ref :=
  if d.key = "path" then .ok { ref with path := d.value }
  else if d.key = "tag" then .ok { ref with tag := d.value }
  else if d.key = "line_start" then (lineNumber d).map fun n => { ref with lineStart := n }
  else if d.key = "line_end" then (lineNumber d).map fun n => { ref with lineEnd := n }
  else .ok ref

/-- Reads directives in order up to the first fault, and keeps what was read before it. -/
def applyLines (ref : Ref) : List Text → Ref × Option Fault
  | [] => (ref, none)
  | line :: lines =>
    match Directive.ofLine? line with
    | none => applyLines ref lines
    | some d =>
      match ref.apply d with
      | .ok ref => applyLines ref lines
      | .error fault => (ref, some fault)

def ofBody (body : Text) : Ref × Option Fault := applyLines empty (body.split Text.lf)

end Ref

end Tangle
