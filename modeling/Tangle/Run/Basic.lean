import Tangle.Document.Lint
import Tangle.Run.Report
import Tangle.Scan
import Tangle.Selection

namespace Tangle.Run

open Text

inductive Obstacle
  | scan (f : Scan.Failure)
  | pattern (b : Selection.BadPattern)
  deriving DecidableEq, Repr

def Obstacle.message : Obstacle → Text
  | scan f => f.message
  | pattern b => b.message

def each {σ α β : Type} (act : σ → α → β × σ) : σ → List α → List β × σ
  | s, [] => ([], s)
  | s, a :: as =>
    let (b, s) := act s a
    let (bs, s) := each act s as
    (b :: bs, s)

@[simp] theorem length_each {σ α β : Type} (act : σ → α → β × σ) (s : σ) (as : List α) :
    (each act s as).1.length = as.length := by
  induction as generalizing s with
  | nil => rfl
  | cons a as ih => simp [each, ih]

structure Plan where
  options : Options
  base : Base
  store : Store

namespace Plan

def writer (p : Plan) : Writer := ⟨p.base, p.options.outputPath⟩

def context (p : Plan) (files : Files.Tree) : Expansion.Context :=
  ⟨p.store, p.options, p.base, Extract.fetch files p.base⟩

end Plan

/-- How far a run has come: the files, the texts of blocks that are worked out, and the log. -/
structure Progress (s : Store) where
  files : Files.Tree
  memo : List (s.Id × Text) := []
  log : List Log.Entry := []

namespace Progress

variable {s : Store}

def note (g : Progress s) (entries : List Log.Entry) : Progress s :=
  { g with log := g.log ++ entries }

def failed {α : Type} (g : Progress s) (f : Failure) (message : Text)
    (fields : List (Text × Log.Value)) : Outcome α × Progress s :=
  let detail : Text × Log.Value := ("error", .text f.message)
  (.error f, g.note [⟨.error, message, fields ++ [detail]⟩])

end Progress

variable (p : Plan)

def expand (g : Progress p.store) (text : Text) :
    Except Expansion.Failure Text × Progress p.store :=
  let (result, session) := (p.context g.files).resolve g.memo text
  (result, { g with memo := session.memo, log := g.log ++ session.log })

/-- Carries out a writer's step, unless this is a dry run, which ends with `planned`. -/
def perform {α β : Type} (g : Progress p.store) (step : Writer.Step α) (result : α → β) (planned : β)
    (message : Text) (fields : List (Text × Log.Value)) : Outcome β × Progress p.store :=
  if p.options.dryRun then (.ok planned, g)
  else
    let g := { g with files := step.files }.note step.log
    match step.outcome with
    | .ok a => (.ok (result a), g)
    | .error f => g.failed (.writing f) message fields

def writeOutput (g : Progress p.store) (out : Output) : Outcome Text × Progress p.store :=
  match expand p g out.body with
  | (.error f, g) =>
    g.failed (.output out.target f) "Could not resolve output block" [("source", .text out.source)]
  | (.ok content, g) =>
    let path := p.writer.target out
    perform p g (p.writer.writeOutput g.files out content) (fun _ => path) path
      "Could not write output" [("path", .text path)]

def writeInjection (g : Progress p.store) (inj : Injection) : Outcome Text × Progress p.store :=
  match expand p g inj.body.dropFinalLf with
  | (.error f, g) =>
    g.failed (.injection inj.name f) "Could not resolve injection block"
      [("source", .text inj.source)]
  | (.ok body, g) =>
    let path := p.writer.injectionTarget inj
    let content := (p.context g.files).provenance (.injection inj) inj.name ++ body
    perform p g (p.writer.inject g.files inj content) (fun _ => path) path
      "Could not inject block" [("name", .text inj.name)]

def readImport (g : Progress p.store) (i : Import) : Outcome (Import × Text) × Progress p.store :=
  match Extract.fetch g.files p.base i.ref with
  | .ok content => (.ok (i, content), g)
  | .error f =>
    match f with
    | .tagNotClosed _ _ content =>
      (.ok (i, content), g.note [⟨.warn, "Importing partial tag region",
        [("source", .text i.source), ("error", .text f.message)]⟩])
    | f =>
      g.failed (.importing i.ref.path f) "Could not read import"
        [("source", .text i.source), ("line", .number i.first)]

def byDocument (is : List (Import × Text)) : List (Text × List (Import × Text)) :=
  (is.map (·.1.source)).eraseDups.map fun d => (d, is.filter (·.1.source = d))

def writeImports (g : Progress p.store) (group : Text × List (Import × Text)) :
    Outcome Text × Progress p.store :=
  perform p g (Writer.importInto g.files group.1 group.2) (fun _ => group.1) group.1
    "Could not import into document" [("path", .text group.1)]

def writePull (g : Progress p.store) (pull : Pull) : Outcome (Option Text) × Progress p.store :=
  let document := pull.document
  let fields : List (Text × Log.Value) := [("into", .text pull.source)]
  let custom := (p.store.findFrom? .custom pull.name (Path.clean · = document)).map p.store.get
  match custom with
  | some (.custom c) =>
    perform p g (Writer.pull g.files pull c)
      (fun action => if action = .patched then some pull.source else none) (some pull.source)
      "Could not pull block" fields
  | _ =>
    let f := if g.files.exists? document then .blockMissing pull.name document
      else .sourceMissing document
    g.failed f "Could not pull block" fields

def readDocument (files : Files.Tree) (log : List Log.Entry) (d : Document) :
    Outcome Lexed × List Log.Entry :=
  match files.read d.path with
  | .error e =>
    (.error (.document e), log ++ [⟨.error, "Could not read document",
      [("path", .text d.path), ("error", .text e.message)]⟩])
  | .ok content =>
    let lexed := lex d.path d.relDir content
    let found := lexed ++ { diagnostics := lint d.path content lexed }
    (.ok found, log ++ found.diagnostics.map fun d =>
      ⟨.warn, "Document problem",
        [("path", .text d.source), ("line", .number d.line), ("problem", .text d.message)]⟩)

def configDocumentNote (o : Options) (base : Base) (files : Files.Tree) : List Log.Entry :=
  if o.configDocument = [] then []
  else
    let path := base.resolve o.configDocument
    let message : Text := if files.exists? path then "Found config document"
      else "No config document, using defaults"
    [⟨.info, message, [("path", .text path)]⟩]

def blockCounts (s : Store) : List Log.Entry :=
  Kind.all.map fun k =>
    ⟨.debug, "Found blocks", [("kind", .text k.name), ("count", .number (s.count k))]⟩

def optionsNote (o : Options) : Log.Entry :=
  ⟨.debug, "Resolved options", [("include", .texts o.included), ("ignore", .texts o.ignored),
    ("output_source", .flag o.outputSource), ("unresolved", .text o.unresolved.name)]⟩

structure Result where
  outcome : Except Obstacle Account
  files : Files.Tree
  log : List Log.Entry

def blocksOf (files : Files.Tree) (documents : List Document) : Store :=
  ⟨(successes (each (readDocument files) [] documents).1).flatMap (·.blocks)⟩

def mentioned (o : Options) (base : Base) (s : Store) : List Text :=
  let w : Writer := ⟨base, o.outputPath⟩
  s.outputs.map w.target ++ s.injections.map w.injectionTarget ++
    s.imports.map (fun i => base.resolve i.ref.path) ++
    s.references.map (fun r => base.resolve r.ref.path) ++ s.pulls.map (·.document)

def write (documents : List (Outcome Lexed)) (faults : List Config.Fault) (outputs : List Output)
    (files : Files.Tree) (log : List Log.Entry) : Result :=
  let g : Progress p.store := ⟨files, [], log⟩
  let (outputOutcomes, g) := each (writeOutput p) g outputs
  let (injections, g) := each (writeInjection p) g p.store.injections
  let (imports, g) := each (readImport p) g p.store.imports
  let (importing, g) := each (writeImports p) g (byDocument (successes imports))
  let (pulls, g) := each (writePull p) g p.store.pulls
  let account : Account :=
    { documents, settings := faults
      filtered := p.store.outputs.length - outputs.length
      outputs := outputOutcomes, injections, imports, importing, pulls }
  ⟨.ok account, g.files, g.log⟩

end Tangle.Run

namespace Tangle

open Run in
/-- A run with the given options. The overrides hold before and after the configuration blocks of
the documents. -/
def run (env : Environment) (options : Options) (overrides : Overrides) (files : Files.Tree) :
    Run.Result :=
  let options := options.override env overrides
  let base := env.base options.inputPath
  match scan files options.extensions base.path with
  | .error f => ⟨.error (.scan f), files, []⟩
  | .ok documents =>
    let log : List Log.Entry :=
      ⟨.info, "Scanned input", [("root", .text base.path), ("documents", .number documents.length)]⟩ ::
        configDocumentNote options base files
    let (read, log) := each (readDocument files) log documents
    let store : Store := ⟨(successes read).flatMap (·.blocks)⟩
    let (configured, faults) := Config.resolve options store.configs
    let options := configured.override env overrides
    let log := log ++ blockCounts store ++
      faults.map (fun f => ⟨.error, "Bad configuration value", [("error", .text f.message)]⟩) ++
      [optionsNote options]
    let selected := Selection.apply base options.included options.ignored store.outputs
    match Selection.narrow base options.outputFile options.documentPattern selected with
    | .error b => ⟨.error (.pattern b), files, log⟩
    | .ok outputs =>
      let filtered := store.outputs.length - outputs.length
      let log := log ++ [⟨.info, "Selected output blocks",
        [("selected", .number outputs.length), ("filtered", .number filtered)]⟩]
      write ⟨options, base, store⟩ read faults outputs files log

end Tangle
