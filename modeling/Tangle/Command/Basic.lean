import Tangle.Command.Flag
import Tangle.Command.Help
import Tangle.Config.Load
import Tangle.Run.Basic
import Tangle.Run.Printer

namespace Tangle

inductive Command
  | main
  | check
  | help
  deriving DecidableEq, Repr

namespace Command

open Text

def helpText : Command → Text
  | main => Help.main
  | check => Help.check
  | help => Help.help

def flags : Command → List Flag
  | main => Flag.shared ++ [.help, .version]
  | _ => Flag.shared ++ [.help]

def ofName? (name : Text) : Option Command :=
  if name = "check" then some .check else if name = "help" then some .help else none

def takesNext (a : Text) : Bool :=
  let switches := Flag.shared.filter Flag.isSwitch
  match a with
  | 45 :: 45 :: name => !List.contains a equals && !switches.any (·.name = name)
  | [45, c] => c != equals && !switches.any (·.letter? = some c)
  | _ => false

def words : (fuel : Nat) → List Text → List Text
  | 0, _ => []
  | _ + 1, [] => []
  | fuel + 1, a :: rest =>
    if a = "--" then []
    else if takesNext a then
      match rest with
      | _ :: b :: rest => words fuel (b :: rest)
      | _ => []
    else if a ≠ [] ∧ a.head? ≠ some 45 then a :: words fuel rest
    else words fuel rest

def without (word : Text) : (fuel : Nat) → List Text → List Text
  | 0, args => args
  | _ + 1, [] => []
  | fuel + 1, a :: rest =>
    if a = "--" then a :: rest
    else if takesNext a then
      match rest with
      | value :: rest => a :: value :: without word fuel rest
      | [] => [a]
    else if a.head? ≠ some 45 ∧ a = word then rest
    else a :: without word fuel rest

def ofArguments (args : List Text) : Command × List Text :=
  match words (args.length + 1) args with
  | [] => (.main, args)
  | word :: _ =>
    match ofName? word with
    | some c => (c, without word (args.length + 1) args)
    | none => (.main, args)

inductive Failure
  | usage (f : Fault)
  | load (f : Config.Failure)
  | policy (u : Policy.Unknown)
  | passes (n : Int)
  | run (o : Run.Obstacle)
  | problems (n : Nat)

def Failure.message : Failure → Text
  | usage f => f.message
  | load f => f.message
  | policy u => u.message
  | passes n => "--max-passes must be positive, got " ++ Decimal.ofInt n
  | run o => o.message
  | problems n => "problems found: " ++ Decimal.ofNat n

def overrides (fs : Flags) (args : List Text) : Except Failure Overrides :=
  let ov : Overrides :=
    { inputPath := args.head?.or (fs.text? .inputPath)
      outputPath := fs.text? .outputPath
      outputFile := fs.text? .outputFile
      documentPattern := fs.text? .documentPattern
      outputSource := fs.truth? .outputSource
      absoluteSources := fs.truth? .absoluteSources
      dryRun := fs.truth? .dryRun }
  match (fs.text? .unresolved).map Policy.read with
  | some (.error u) => .error (.policy u)
  | policy =>
    let unresolved := policy.bind Except.toOption
    match fs.maxPasses with
    | some n => if n < 1 then .error (.passes n) else .ok { ov with unresolved, maxPasses := some n }
    | none => .ok { ov with unresolved }

structure Answer where
  failure : Option Failure := none
  output : Text := []
  log : List Log.Entry := []
  files : Files.Tree

def Answer.succeeded (a : Answer) : Bool := a.failure.isNone

def Answer.errorText (a : Answer) : Text :=
  match a.failure with
  | some f => "Error: " ++ f.message ++ "\n"
  | none => []

def level (fs : Flags) : Log.Level :=
  if fs.isSet .verbose then .debug else if fs.isSet .quiet then .warn else .info

/-- The options from the outside and what the command line overrides; `check` never writes. -/
def settle (env : Environment) (files : Files.Tree) (checking : Bool) (fs : Flags)
    (args : List Text) : Except Failure (Options × Overrides) :=
  match Config.load ⟨env, files, []⟩ with
  | .error f => .error (.load f)
  | .ok options =>
    match overrides fs args with
    | .error f => .error f
    | .ok ov => .ok (options, if checking then { ov with dryRun := some true } else ov)

def present (env : Environment) (checking : Bool) (o : Options) (report : Run.Report) :
    Text × Option Failure :=
  if checking then
    match report.diagnostics.length + report.failures.length with
    | 0 => (Decimal.ofInt report.documents ++ " documents, no problems\n", none)
    | n => (report.problemText false, some (.problems n))
  else (report.text false (env.base o.inputPath) o.dryRun, none)

def execute (env : Environment) (files : Files.Tree) (checking : Bool) (fs : Flags)
    (args : List Text) : Answer :=
  let loaded : List Log.Entry := match Config.file? env files with
    | some p => [⟨.debug, "Loaded config file", [("path", .text p)]⟩]
    | none => []
  match settle env files checking fs args with
  | .error f => { failure := some f, log := Log.atLeast (level fs) loaded, files }
  | .ok (options, ov) =>
    let r := run env options ov files
    let log := Log.atLeast (level fs) (loaded ++ r.log)
    match r.outcome with
    | .error o => { failure := some (.run o), log, files := r.files }
    | .ok account =>
      let (output, failure) := present env checking (options.override env ov) account.report
      { failure, output, log, files := r.files }

def invoke (env : Environment) (files : Files.Tree) (c : Command) (args : List Text) : Answer :=
  match Flags.ofArguments c.flags args with
  | .error f => { failure := some (.usage f), files }
  | .ok (fs, args) =>
    if fs.isSet .help then { output := c.helpText, files }
    else if fs.isSet .version then { output := Help.version, files }
    else
      match c with
      | .help => { output := (ofArguments args).1.helpText, files }
      | c =>
        if 1 < args.length then { failure := some (.usage (.tooManyArguments args.length)), files }
        else execute env files (c = .check) fs args

def options? (env : Environment) (files : Files.Tree) (args : List Text) : Option Options :=
  let (c, args) := ofArguments args
  match Flags.ofArguments c.flags args with
  | .error _ => none
  | .ok (fs, args) =>
    match settle env files (c = .check) fs args with
    | .error _ => none
    | .ok (options, ov) => some (options.override env ov)

def answer (env : Environment) (files : Files.Tree) (args : List Text) : Answer :=
  let (c, args) := ofArguments args
  invoke env files c args

end Command

end Tangle
