import Tangle.Proofs.Run.Documents

namespace Tangle

open Text

namespace Store

variable {s s' : Store}

section Answered

-- All that is left of `s` are the blocks that last.
variable (h : s'.blocks.map Block.unplaced = s.lasting)

include h

theorem lasting_eq_of_answered : s'.lasting = s.lasting := by
  rw [lasting, h, lasting, List.filter_filter]
  simp

theorem exists_of_mem_answered {b : Block} (hb : b ∈ s'.blocks) :
    b.lasts = true ∧ ∃ b₀ ∈ s.blocks, b₀.unplaced = b.unplaced := by
  have hmem : b.unplaced ∈ s.lasting := h ▸ List.mem_map_of_mem hb
  rw [lasting, List.mem_filter, Block.lasts_unplaced] at hmem
  exact ⟨hmem.2, List.mem_map.1 hmem.1⟩

theorem imports_of_answered : s'.imports = [] := by
  refine List.eq_nil_iff_forall_not_mem.2 fun i hi => ?_
  obtain ⟨hlasts, -⟩ := exists_of_mem_answered h (mem_imports.1 hi)
  cases hlasts

theorem pulls_of_answered : s'.pulls = [] := by
  refine List.eq_nil_iff_forall_not_mem.2 fun q hq => ?_
  obtain ⟨hlasts, -⟩ := exists_of_mem_answered h (mem_pulls.1 hq)
  cases hlasts

theorem injections_of_answered (hnone : s.injections = []) : s'.injections = [] := by
  refine List.eq_nil_iff_forall_not_mem.2 fun i hi => ?_
  obtain ⟨-, b₀, hb₀, hsame⟩ := exists_of_mem_answered h (mem_injections.1 hi)
  cases b₀ with
  | injection i₀ => exact List.eq_nil_iff_forall_not_mem.1 hnone i₀ (mem_injections.2 hb₀)
  | _ => cases hsame

end Answered

end Store

namespace Run

section Settling

variable (env : Environment) (options : Options) (overrides : Overrides)

def rootOf : Base := env.base (options.override env overrides).inputPath

def documentsIn (files : Files.Tree) : Except Scan.Failure (List Document) :=
  scan files (options.override env overrides).extensions (rootOf env options overrides).path

def planOf (s : Store) : Plan where
  options := (Config.resolve (options.override env overrides) s.configs).1.override env overrides
  base := rootOf env options overrides
  store := s

def faultsOf (s : Store) : List Config.Fault :=
  (Config.resolve (options.override env overrides) s.configs).2

def Plan.selected (p : Plan) : Except Selection.BadPattern (List Output) :=
  Selection.narrow p.base p.options.outputFile p.options.documentPattern
    (Selection.apply p.base p.options.included p.options.ignored p.store.outputs)

def settledLog (files : Files.Tree) (documents : List Document) : List Log.Entry :=
  let scanned : Log.Entry := ⟨.info, "Scanned input",
    [("root", .text (rootOf env options overrides).path), ("documents", .number documents.length)]⟩
  let noted :=
    configDocumentNote (options.override env overrides) (rootOf env options overrides) files
  let s := blocksOf files documents
  (each (readDocument files) (scanned :: noted) documents).2 ++ blockCounts s ++
    (faultsOf env options overrides s).map (fun f =>
      ⟨.error, "Bad configuration value", [("error", .text f.message)]⟩) ++
    [optionsNote (planOf env options overrides s).options]

def runOn (files : Files.Tree) (documents : List Document) : Result :=
  let p := planOf env options overrides (blocksOf files documents)
  let log := settledLog env options overrides files documents
  match p.selected with
  | .error b => ⟨.error (.pattern b), files, log⟩
  | .ok outputs =>
    let filtered := p.store.outputs.length - outputs.length
    write p (each (readDocument files) [] documents).1
      (faultsOf env options overrides p.store) outputs files
      (log ++ [⟨.info, "Selected output blocks",
        [("selected", .number outputs.length), ("filtered", .number filtered)]⟩])

variable {env options overrides} {files : Files.Tree} {documents : List Document}

theorem run_of_scan_error {f : Scan.Failure}
    (h : documentsIn env options overrides files = .error f) :
    run env options overrides files = ⟨.error (.scan f), files, []⟩ := by
  unfold documentsIn rootOf at h
  unfold run
  simp only [h]

theorem run_eq_runOn (h : documentsIn env options overrides files = .ok documents) :
    run env options overrides files = runOn env options overrides files documents := by
  unfold documentsIn rootOf at h
  unfold run
  simp only [h]
  have hread : ∀ log, (each (readDocument files) log documents).1 =
      (each (readDocument files) [] documents).1 := by
    intro log
    rw [fst_each_readDocument, fst_each_readDocument]
  simp only [hread]
  rfl

theorem run_eq_write {outputs : List Output}
    (h : documentsIn env options overrides files = .ok documents)
    (hselected : (planOf env options overrides (blocksOf files documents)).selected = .ok outputs) :
    ∃ log, run env options overrides files =
      write (planOf env options overrides (blocksOf files documents))
        (each (readDocument files) [] documents).1
        (faultsOf env options overrides (blocksOf files documents)) outputs files log := by
  rw [run_eq_runOn h, runOn]
  dsimp only
  rw [hselected]
  exact ⟨_, rfl⟩

theorem exists_selected {account : Account}
    (h : documentsIn env options overrides files = .ok documents)
    (hrun : (run env options overrides files).outcome = .ok account) :
    ∃ outputs, (planOf env options overrides (blocksOf files documents)).selected = .ok outputs := by
  rw [run_eq_runOn h, runOn] at hrun
  dsimp only at hrun
  cases hselected : (planOf env options overrides (blocksOf files documents)).selected with
  | error b =>
    rw [hselected] at hrun
    cases hrun
  | ok outputs => exact ⟨outputs, rfl⟩

theorem dryRun_planOf (s : Store) :
    (planOf env options overrides s).options.dryRun = (options.override env overrides).dryRun := by
  have hresolve := Config.dryRun_resolve (options.override env overrides) s.configs
  unfold planOf
  dsimp only [Options.override] at hresolve ⊢
  rw [hresolve]
  cases overrides.dryRun <;> rfl

variable {s s' : Store}

theorem agree_planOf (h : s'.lasting = s.lasting) :
    Agree (planOf env options overrides s) (planOf env options overrides s') ∧
      (faultsOf env options overrides s').map (·.cause) =
        (faultsOf env options overrides s).map (·.cause) := by
  have hconfigs : s'.configs.map Config.unplaced = s.configs.map Config.unplaced := by
    rw [← Store.configs_lasting, ← Store.configs_lasting, h]
  obtain ⟨hoptions, hcauses⟩ :=
    Config.resolve_unplaced (options.override env overrides) s.configs
  obtain ⟨hoptions', hcauses'⟩ :=
    Config.resolve_unplaced (options.override env overrides) s'.configs
  rw [hconfigs] at hoptions' hcauses'
  refine ⟨⟨?_, rfl, h⟩, hcauses'.symm.trans hcauses⟩
  unfold planOf
  dsimp only
  rw [← hoptions, hoptions']

end Settling

variable {p p' : Plan}

theorem Agree.selected {outputs : List Output} (h : Agree p p')
    (hselected : p.selected = .ok outputs) :
    ∃ outputs', p'.selected = .ok outputs' ∧
      outputs'.map Output.unplaced = outputs.map Output.unplaced := by
  have hmap : ∀ p : Plan, p.selected.map (List.map Output.unplaced) =
      Selection.narrow p.base p.options.outputFile p.options.documentPattern
        (Selection.apply p.base p.options.included p.options.ignored
          (Store.outputs ⟨p.store.lasting⟩)) := by
    intro p
    rw [Store.outputs_lasting, Selection.apply_unplaced, Selection.narrow_unplaced]
    rfl
  have heq : p'.selected.map (List.map Output.unplaced) =
      p.selected.map (List.map Output.unplaced) := by
    rw [hmap, hmap, h.options_eq, h.base_eq, h.lasting_eq]
  rw [hselected] at heq
  cases hselected' : p'.selected with
  | error b =>
    rw [hselected'] at heq
    cases heq
  | ok outputs' =>
    rw [hselected'] at heq
    exact ⟨outputs', rfl, Except.ok.inj heq⟩

theorem write_eq {documents : List (Outcome Lexed)} {faults : List Config.Fault}
    {outputs : List Output} {files : Files.Tree} {log : List Log.Entry}
    (h : p.store.injections = []) :
    write p documents faults outputs files log =
      let writing := writeOutputs p files log outputs
      let reading := each (readImport p) writing.2 p.store.imports
      let importing := each (writeImports p) reading.2 (byDocument (successes reading.1))
      let pulling := each (writePull p) importing.2 p.store.pulls
      ⟨.ok { documents, settings := faults
             filtered := p.store.outputs.length - outputs.length
             outputs := writing.1, injections := [], imports := reading.1
             importing := importing.1, pulls := pulling.1 },
        pulling.2.files, pulling.2.log⟩ := by
  unfold write
  rw [h]
  rfl

theorem write_eq_of_answered {documents : List (Outcome Lexed)} {faults : List Config.Fault}
    {outputs : List Output} {files : Files.Tree} {log : List Log.Entry}
    (hinjections : p.store.injections = []) (himports : p.store.imports = [])
    (hpulls : p.store.pulls = []) :
    write p documents faults outputs files log =
      ⟨.ok { documents, settings := faults
             filtered := p.store.outputs.length - outputs.length
             outputs := (writeOutputs p files log outputs).1, injections := [], imports := []
             importing := [], pulls := [] },
        (writeOutputs p files log outputs).2.files, (writeOutputs p files log outputs).2.log⟩ := by
  rw [write_eq hinjections, himports, hpulls]
  rfl

section Blocks

variable {files : Files.Tree} {documents : List Document}
  (h : ∀ d ∈ documents, files.read d.path = .ok (textOf files d))

include h

theorem colonFree_blocksOf : (blocksOf files documents).ColonFree := by
  intro b hb
  rw [blocks_blocksOf h] at hb
  obtain ⟨d, -, hb⟩ := List.mem_flatMap.1 hb
  exact colonFree_lex d.path d.relDir (textOf files d) b hb

theorem map_unplaced_blocksOf {files' : Files.Tree}
    (h' : ∀ d ∈ documents, files'.read d.path = .ok (textOf files' d))
    (hlex : ∀ d ∈ documents, (lexedIn files' d).blocks.map Block.unplaced =
      ((lexedIn files d).blocks.map Block.unplaced).filter Block.lasts) :
    (blocksOf files' documents).blocks.map Block.unplaced = (blocksOf files documents).lasting := by
  rw [Store.lasting, blocks_blocksOf h, blocks_blocksOf h', List.map_flatMap, List.map_flatMap,
    List.filter_flatMap]
  exact List.flatMap_congr hlex

end Blocks

end Run

end Tangle
