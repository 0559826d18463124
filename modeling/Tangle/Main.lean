import Tangle.Command.Basic
import Tangle.Log.Line

namespace Tangle.Program

open Text

def ofBytes (b : ByteArray) : Text := b.toList

def toBytes (t : Text) : ByteArray := ⟨t.toArray⟩

def systemPath? (t : Text) : Option String := String.fromUTF8? (toBytes t)

def entryOf (path : String) : IO.FS.DirEntry := ⟨path, ""⟩

def takeFile (t : Files.Tree) (path : Text) : IO Files.Tree := do
  match systemPath? path with
  | none => pure t
  | some name =>
    if ← (entryOf name).path.isDir then pure (t.placeDirectory path)
    else
      try pure (t.place path (.file (ofBytes (← IO.FS.readBinFile name))))
      catch _ => pure t

def takeFiles (t : Files.Tree) (paths : List Text) : IO Files.Tree := paths.foldlM takeFile t

partial def takeNames (t : Files.Tree) (path : Text) : IO Files.Tree := do
  match systemPath? path with
  | none => pure t
  | some name =>
    if ← (entryOf name).path.isDir then
      let mut tree := t.placeDirectory path
      let entries ← try (entryOf name).path.readDir catch _ => pure #[]
      for e in entries do
        tree ← takeNames tree (Path.append path (ofString e.fileName))
      pure tree
    else if ← (entryOf name).root.pathExists then pure (t.place path (.file []))
    else pure t

def survey (env : Environment) (args : List Text) : IO Files.Tree := do
  let t ← takeFiles (Files.Tree.empty .disk) (Config.fileCandidates env)
  let t := t.placeDirectory env.cwd
  match Command.options? env t args with
  | none => pure t
  | some options =>
    let base := env.base options.inputPath
    let t ← takeNames t base.path
    match scan t options.extensions base.path with
    | .error _ => pure t
    | .ok documents =>
      let t ← takeFiles t (documents.map (·.path))
      takeFiles t (Run.mentioned options base (Run.blocksOf t documents))

def putBack (change : Text × Text) : IO Unit := do
  match systemPath? (Path.directory change.1), systemPath? change.1 with
  | some directory, some name =>
    IO.FS.createDirAll directory
    IO.FS.writeBinFile name (toBytes change.2)
  | _, _ => pure ()

def environment : IO Environment := do
  let cwd ← IO.currentDir
  let home ← IO.getEnv "HOME"
  let bindings ← (Config.Key.all.map (·.variableName)).filterMapM fun name => do
    match systemPath? name with
    | none => pure none
    | some n => pure ((← IO.getEnv n).map fun value => (name, ofString value))
  let home := (home.map ofString).filter (· ≠ [])
  pure ⟨ofString cwd.toString, home, bindings⟩

def print (stream : IO.FS.Stream) (t : Text) : IO Unit := do
  stream.write (toBytes t)
  stream.flush

end Tangle.Program

open Tangle Program in
def main (args : List String) : IO UInt32 := do
  let env ← environment
  let args := args.map Text.ofString
  let before ← survey env args
  let a := Command.answer env before args
  (a.files.changesSince before).forM putBack
  let err ← IO.getStderr
  a.log.forM fun e => print err (e.line ++ "\n")
  print (← IO.getStdout) a.output
  print err a.errorText
  pure (if a.succeeded then 0 else 1)
