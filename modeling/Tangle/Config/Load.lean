import Tangle.Config.Options
import Tangle.Config.Setting
import Tangle.Files.Tree
import Tangle.Yaml.Document

namespace Tangle.Config

open Text

inductive Key
  | inputPath
  | outputPath
  | outputSource
  | absoluteSources
  | unresolved
  | maxPasses
  | extensions
  | configDocument
  deriving DecidableEq, Repr

namespace Key

def all : List Key :=
  [inputPath, outputPath, outputSource, absoluteSources, unresolved, maxPasses, extensions,
    configDocument]

def name : Key → Text
  | inputPath => "input_path"
  | outputPath => "output_path"
  | outputSource => "output_source"
  | absoluteSources => "output_source_absolute_paths"
  | unresolved => "unresolved"
  | maxPasses => "max_passes"
  | extensions => "extensions"
  | configDocument => "config_document"

def variableName (k : Key) : Text :=
  "LIT_" ++ k.name.map fun b => if 97 ≤ b ∧ b ≤ 122 then b - 32 else b

end Key

def fileNames : List Text :=
  (["json", "toml", "yaml", "yml", "properties", "props", "prop", "hcl", "tfvars", "dotenv", "env",
    "ini"] : List String).map (fun e => "lit." ++ ofString e) ++ [ofString "lit"]

def fileDirectories (env : Environment) : List Text :=
  let home := match env.home with
    | some home => [Path.append home ".config/lit", home]
    | none => []
  (home ++ [env.cwd]).map (Path.absolute env.cwd)

def fileCandidates (env : Environment) : List Text :=
  (fileDirectories env).flatMap fun dir => fileNames.map (Path.append dir ·)

def file? (env : Environment) (files : Files.Tree) : Option Text :=
  (fileCandidates env).find? fun p =>
    match files.stat p with
    | .ok e => !e.isDirectory
    | .error _ => false

/-- The settings of the configuration file. One that cannot be read counts as empty. -/
def fileSettings (env : Environment) (files : Files.Tree) : List (Text × Value) :=
  match file? env files with
  | none => []
  | some p =>
    match files.read p with
    | .error _ => []
    | .ok content => (Yaml.settings? content).getD []

/-- Looks up a key; case does not count in keys. A spelling with capitals goes before the plain
one. -/
def lookup (settings : List (Text × Value)) (key : Text) : Option Value :=
  let found := settings.filter (·.1.toLower = key)
  match (found.filter (·.1 ≠ key)).getLast?, found.getLast? with
  | some (_, v), _ => some v.lowered
  | none, some (_, v) => some v.lowered
  | none, none => none

structure Sources where
  environment : Environment
  files : Files.Tree
  given : List (Text × Value) := []

/-- The value of a setting. Null counts as absent, and so does an empty variable. -/
def Sources.value (s : Sources) (k : Key) (fallback : Value) : Value :=
  let fromVariable := match s.environment.bindings.lookup k.variableName with
    | some [] => Value.null
    | some t => .text t
    | none => .null
  let candidates := [(lookup s.given k.name).getD .null, fromVariable,
    (lookup (fileSettings s.environment s.files) k.name).getD .null]
  (candidates.find? fun v => !v.isNull).getD fallback

inductive Failure
  | unreadable (faults : List Unreadable)
  | policy (u : Policy.Unknown)
  | passes (n : Int)

def Failure.message : Failure → Text
  | unreadable faults =>
    "decode config: decoding failed due to the following error(s):\n\n" ++
      join "\n" (faults.map (·.message))
  | policy u => u.message
  | passes n => "max_passes must be positive, got " ++ Decimal.ofInt n

def attempt (default : α) : Except Unreadable α → α × List Unreadable
  | .ok a => (a, [])
  | .error e => (default, [e])

def attemptAll (rs : List (Except Unreadable Text)) : List Text × List Unreadable :=
  (rs.filterMap Except.toOption, rs.filterMap fun
    | .ok _ => none
    | .error e => some e)

def load (s : Sources) : Except Failure Options :=
  let o := Options.defaults
  let text (k : Key) (old : Text) := attempt [] (toText k.name (s.value k (.text old)))
  let flag (k : Key) (old : Bool) := attempt false (toBool k.name (s.value k (.flag old)))
  let number (k : Key) (old : Nat) := attempt 0 (toInt k.name (s.value k (.whole old)))
  let texts (k : Key) (old : List Text) :=
    attemptAll (toTexts k.name (s.value k (.list (old.map .text))))
  let (inputPath, faults₁) := text .inputPath o.inputPath
  let (outputPath, faults₂) := text .outputPath o.outputPath
  let (outputSource, faults₃) := flag .outputSource o.outputSource
  let (absoluteSources, faults₄) := flag .absoluteSources o.absoluteSources
  let (unresolved, faults₅) := text .unresolved o.unresolved.name
  let (maxPasses, faults₆) := number .maxPasses o.maxPasses
  let (extensions, faults₇) := texts .extensions o.extensions
  let (configDocument, faults₈) := text .configDocument o.configDocument
  match faults₁ ++ faults₂ ++ faults₃ ++ faults₄ ++ faults₅ ++ faults₆ ++ faults₇ ++ faults₈ with
  | [] =>
    match Policy.read unresolved with
    | .error u => .error (.policy u)
    | .ok policy =>
      if maxPasses < 1 then .error (.passes maxPasses)
      else .ok { o with
        inputPath := s.environment.expandHome inputPath
        outputPath := Options.outputRoot s.environment outputPath
        outputSource, absoluteSources
        unresolved := policy
        maxPasses := maxPasses.toNat
        extensions, configDocument }
  | faults => .error (.unreadable faults)

end Tangle.Config
