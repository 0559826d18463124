import Tangle.Files.Tree
import Tangle.Log
import Tangle.Write.Patch

namespace Tangle

inductive Action
  | created
  | replaced
  | patched
  | unchanged
  deriving DecidableEq, Repr

def Action.name : Action → Text
  | created => "created"
  | replaced => "replaced"
  | patched => "patched"
  | unchanged => "unchanged"

/-- Where writers put things: relative targets lie below `base`, and outputs below `outputPath` when
it is set. -/
structure Writer where
  base : Base
  outputPath : Text
  deriving DecidableEq, Repr

namespace Writer

inductive Failure
  | makeDirectory (path : Text) (e : Files.Error)
  | write (path : Text) (e : Files.Error)
  | read (path : Text) (e : Files.Error)
  | targetMissing (path : Text)
  | placeholderMissing (path token : Text)
  | splice (document : Text) (f : Patch.Failure)
  | markerMissing (document name : Text)
  deriving DecidableEq, Repr

def Failure.message : Failure → Text
  | makeDirectory path e => "create directory for " ++ path ++ ": " ++ e.message
  | write path e => "write " ++ path ++ ": " ++ e.message
  | read path e => "read " ++ path ++ ": " ++ e.message
  | targetMissing path => path ++ ": target file does not exist"
  | placeholderMissing path token => path ++ ": placeholder not found in target: " ++ token
  | splice document f => document ++ ": " ++ f.message
  | markerMissing document name => document ++ ": pull_from marker not found: " ++ name

structure Step (α : Type) where
  outcome : Except Failure α
  files : Files.Tree
  log : List Log.Entry := []

def Step.fail {α : Type} (files : Files.Tree) (f : Failure) : Step α := ⟨.error f, files, []⟩

def put {α : Type} (files : Files.Tree) (path content : Text) (result : α) (entry : Log.Entry) :
    Step α :=
  match files.write path content with
  | .error e => .fail files (.write path e)
  | .ok files => ⟨.ok result, files, [entry]⟩

def target (w : Writer) (out : Output) : Text :=
  if w.outputPath ≠ [] then Path.against w.outputPath out.path else w.base.resolve out.path

def writeOutput (w : Writer) (files : Files.Tree) (out : Output) (content : Text) : Step Action :=
  let path := w.target out
  match files.makeDirectory (Path.directory path) with
  | .error e => .fail files (.makeDirectory path e)
  | .ok files =>
    let action := if files.exists? path then .replaced else .created
    put files path content action
      ⟨.info, "Wrote file", [("path", .text path), ("action", .text action.name)]⟩

def injectionTarget (w : Writer) (inj : Injection) : Text := w.base.resolve inj.target

def inject (w : Writer) (files : Files.Tree) (inj : Injection) (content : Text) : Step Unit :=
  let path := w.injectionTarget inj
  match files.read path with
  | .error e =>
    if e.reason.isMissing then .fail files (.targetMissing path) else .fail files (.read path e)
  | .ok text =>
    match Patch.inject? text inj.placeholder content with
    | none => .fail files (.placeholderMissing path inj.placeholder)
    | some text =>
      put files path text ()
        ⟨.info, "Injected block", [("name", .text inj.name), ("path", .text path)]⟩

def importInto (files : Files.Tree) (document : Text) (imports : List (Import × Text)) : Step Unit :=
  match files.read document with
  | .error e => .fail files (.read document e)
  | .ok text =>
    match Patch.spliceImports text imports with
    | .error f => .fail files (.splice document f)
    | .ok text =>
      put files document text ()
        ⟨.info, "Imported blocks", [("path", .text document), ("count", .number imports.length)]⟩

def pull (files : Files.Tree) (p : Pull) (custom : Custom) : Step Action :=
  match files.read p.source with
  | .error e => .fail files (.read p.source e)
  | .ok text =>
    match Patch.pull? text p.marker p.path p.name custom.body with
    | some text =>
      put files p.source text .patched
        ⟨.info, "Pulled block",
          [("block", .text p.name), ("from", .text custom.source), ("into", .text p.source)]⟩
    | none =>
      if text.contains (Marker.pull p.path p.name true) then
        ⟨.ok .unchanged, files,
          [⟨.info, "Block already pulled", [("block", .text p.name), ("path", .text p.source)]⟩]⟩
      else .fail files (.markerMissing p.source p.name)

end Writer

def Pull.document (p : Pull) : Text := Path.against (Path.directory p.source) p.path

end Tangle
