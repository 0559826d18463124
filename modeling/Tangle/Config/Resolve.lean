import Tangle.Block.Directive
import Tangle.Config.Options

namespace Tangle.Config

open Text

inductive Cause
  | policy (u : Policy.Unknown)
  | maxPasses (value : Text)
  deriving DecidableEq, Repr

def Cause.message : Cause → Text
  | policy u => u.message
  | maxPasses value => "max_passes must be a positive integer, got " ++ value.quoted

structure Fault where
  source : Text
  line : Int
  cause : Cause
  deriving DecidableEq, Repr

def Fault.message (f : Fault) : Text :=
  f.source ++ ":" ++ Decimal.ofInt f.line ++ ": " ++ f.cause.message

def listedPaths (b : Config) : List Text :=
  (((b.body.split lf).map trim).filter (· ≠ [])).map (Path.against (Path.directory b.source))

def applyLine (o : Options) (line : Text) : Except Cause Options :=
  match Directive.ofLine? line with
  | none => .ok o
  | some d =>
    if d.key = "output_source" then .ok { o with outputSource := d.value = "true" }
    else if d.key = "output_source_absolute_paths" then
      .ok { o with absoluteSources := d.value = "true" }
    else if d.key = "unresolved" then
      match Policy.read d.value with
      | .ok policy => .ok { o with unresolved := policy }
      | .error u => .error (.policy u)
    else if d.key = "max_passes" then
      match Decimal.toInt? d.value with
      | some n => if n < 1 then .error (.maxPasses d.value) else .ok { o with maxPasses := n.toNat }
      | none => .error (.maxPasses d.value)
    else .ok o

/-- Applies lines in order, the first of them at line `n`; a bad one is passed over. -/
def applyLines (source : Text) (o : Options) (n : Int) : List Text → Options × List Fault
  | [] => (o, [])
  | line :: lines =>
    match applyLine o line with
    | .ok o => applyLines source o (n + 1) lines
    | .error cause =>
      let (o, faults) := applyLines source o (n + 1) lines
      (o, ⟨source, n, cause⟩ :: faults)

def applyBlock (o : Options) (b : Config) : Options × List Fault :=
  if b.name = "include" then ({ o with included := o.included ++ listedPaths b }, [])
  else if b.name = "ignore" then ({ o with ignored := o.ignored ++ listedPaths b }, [])
  else if b.name = "general" then applyLines b.source o (b.first + 1) (b.body.split lf)
  else (o, [])

def resolve (o : Options) : List Config → Options × List Fault
  | [] => (o, [])
  | b :: bs =>
    let (o, faults) := applyBlock o b
    let (o, more) := resolve o bs
    (o, faults ++ more)

end Tangle.Config
