import Tangle.Config.Policy
import Tangle.Path

namespace Tangle

structure Environment where
  cwd : Text
  home : Option Text
  bindings : List (Text × Text) := []
  deriving DecidableEq, Repr

namespace Environment

def expandHome (env : Environment) (p : Text) : Text :=
  match p, env.home with
  | 126 :: rest, some home => Path.append home rest
  | p, _ => p

def base (env : Environment) (p : Text) : Base := .ofPath env.cwd p

end Environment

structure Options where
  inputPath : Text
  /-- Where outputs go, absolute; empty means below the input path. -/
  outputPath : Text
  outputFile : Text
  documentPattern : Text
  included : List Text
  ignored : List Text
  outputSource : Bool
  absoluteSources : Bool
  unresolved : Policy
  maxPasses : Nat
  extensions : List Text
  configDocument : Text
  dryRun : Bool
  deriving DecidableEq, Repr

structure Overrides where
  inputPath : Option Text := none
  outputPath : Option Text := none
  outputFile : Option Text := none
  documentPattern : Option Text := none
  outputSource : Option Bool := none
  absoluteSources : Option Bool := none
  unresolved : Option Policy := none
  maxPasses : Option Int := none
  dryRun : Option Bool := none
  deriving DecidableEq, Repr

namespace Options

def defaults : Options where
  inputPath := "."
  outputPath := []
  outputFile := []
  documentPattern := []
  included := []
  ignored := []
  outputSource := true
  absoluteSources := false
  unresolved := .keep
  maxPasses := 64
  extensions := [".md"]
  configDocument := "config.md"
  dryRun := false

/-- An output path in absolute form; the current directory counts as none. -/
def outputRoot (env : Environment) (p : Text) : Text :=
  let p := env.expandHome p
  if p = [] ∨ Path.clean p = "." then [] else Path.absolute env.cwd p

def passLimit (old : Nat) (given : Option Int) : Nat :=
  match given with
  | some n => if 0 < n then n.toNat else old
  | none => old

def override (env : Environment) (o : Options) (ov : Overrides) : Options where
  inputPath := (ov.inputPath.map env.expandHome).getD o.inputPath
  outputPath := (ov.outputPath.map (outputRoot env)).getD o.outputPath
  outputFile := ov.outputFile.getD o.outputFile
  documentPattern := ov.documentPattern.getD o.documentPattern
  included := o.included
  ignored := o.ignored
  outputSource := ov.outputSource.getD o.outputSource
  absoluteSources := ov.absoluteSources.getD o.absoluteSources
  unresolved := ov.unresolved.getD o.unresolved
  maxPasses := passLimit o.maxPasses ov.maxPasses
  extensions := o.extensions
  configDocument := o.configDocument
  dryRun := ov.dryRun.getD o.dryRun

def withInputPath (env : Environment) (o : Options) (p : Text) : Options :=
  o.override env { inputPath := some p }

end Options

end Tangle
