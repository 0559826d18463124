import Tangle.Proofs.Config.Fault
import Tangle.Proofs.Run.Repeat
import Tangle.Proofs.Run.Step

namespace Tangle

open Text

def Writer.Failure.path : Writer.Failure → Text
  | makeDirectory path _ => path
  | write path _ => path
  | read path _ => path
  | targetMissing path => path
  | placeholderMissing path _ => path
  | splice document _ => document
  | markerMissing document _ => document

theorem Writer.path_of_importInto {files : Files.Tree} {document : Text}
    {imports : List (Import × Text)} {f : Writer.Failure}
    (h : (importInto files document imports).outcome = .error f) : f.path = document := by
  unfold importInto at h
  split at h
  next => rw [← Except.error.inj h]; rfl
  next =>
    split at h
    next => rw [← Except.error.inj h]; rfl
    next out _ =>
      unfold put at h
      split at h
      next => rw [← Except.error.inj h]; rfl
      next => cases h

namespace Run

def Failure.isAbout (path : Text) : Failure → Bool
  | writing f => f.path == path
  | _ => false

/-- An import block that cannot be read fails by itself. The document of any other is imported or
fails, and only once. -/
def ImportFate (a : Account) (i : Import) (o : Outcome (Import × Text)) : Prop :=
  (∃ f, o = .error (.importing i.ref.path f)) ∨
    (∃ content, o = .ok (i, content)) ∧
      a.report.imported.count i.source + (failures a.importing).countP (·.isAbout i.source) = 1

def alreadyPulled (q : Pull) : Log.Entry :=
  ⟨.info, "Block already pulled", [("block", .text q.name), ("path", .text q.source)]⟩

inductive PullFate (p : Plan) (log : List Log.Entry) (q : Pull) : Outcome (Option Text) → Prop
  | failed (f : Failure) : PullFate p log q (.error f)
  | pulled : PullFate p log q (.ok (some q.source))
  | already (hdry : p.options.dryRun = false) (hlog : alreadyPulled q ∈ log) :
    PullFate p log q (.ok none)

structure Balanced (p : Plan) (files : Files.Tree) (documents : List Document)
    (log : List Log.Entry) (a : Account) : Prop where
  outputs : ∃ chosen : List Output, chosen.Sublist p.store.outputs ∧
    List.Forall₂ (fun out => TaskFate (p.writer.target out)) chosen a.outputs
  written : a.report.filtered + a.report.written.length + (failures a.outputs).length =
    p.store.outputs.length
  injections : List.Forall₂ (fun inj => TaskFate (p.writer.injectionTarget inj))
    p.store.injections a.injections
  injected : a.report.injected.length + (failures a.injections).length = p.store.injections.length
  imports : List.Forall₂ (ImportFate a) p.store.imports a.imports
  pulls : List.Forall₂ (PullFate p log) p.store.pulls a.pulls
  pulled : a.report.pulled.length + (failures a.pulls).length +
    (successes a.pulls).countP (·.isNone) = p.store.pulls.length
  failures : a.report.failures.length =
    (documents.filter fun d => !(files.read d.path).isOk).length +
      (p.store.configs.flatMap Config.badLines).length + (failures a.outputs).length +
      (failures a.injections).length + (failures a.imports).length +
      (failures a.importing).length + (failures a.pulls).length

variable {p : Plan}

section Imports

variable (g : Progress p.store)

def ReadFate (i : Import) (o : Outcome (Import × Text)) : Prop :=
  (∃ f, o = .error (.importing i.ref.path f)) ∨ ∃ content, o = .ok (i, content)

theorem fst_readImport (i : Import) : ReadFate i (readImport p g i).1 := by
  unfold readImport
  cases Extract.fetch g.files p.base i.ref with
  | ok content => exact .inr ⟨content, rfl⟩
  | error f =>
    cases f with
    | tagNotClosed file tag content => exact .inr ⟨content, rfl⟩
    | _ => exact .inl ⟨_, rfl⟩

def DocumentFate (d : Text) (o : Outcome Text) : Prop :=
  o = .ok d ∨ ∃ f : Writer.Failure, o = .error (.writing f) ∧ f.path = d

theorem fst_writeImports (group : Text × List (Import × Text)) :
    DocumentFate group.1 (writeImports p g group).1 := by
  cases hdry : p.options.dryRun with
  | true => exact .inl (by rw [writeImports_of_dryRun g hdry])
  | false =>
    rcases writeImports_cases g hdry group with h | ⟨f, hf, h⟩
    · exact .inl h
    · exact .inr ⟨f, h, Writer.path_of_importInto hf⟩

theorem forall₂_of_mem {α β : Type} {R S : α → β → Prop} {as : List α} {bs : List β}
    (h : List.Forall₂ R as bs) (himp : ∀ a b, b ∈ bs → R a b → S a b) : List.Forall₂ S as bs := by
  rw [List.forall₂_iff_zip] at h ⊢
  exact ⟨h.1, fun hmem => himp _ _ (List.of_mem_zip hmem).2 (h.2 hmem)⟩

theorem count_add_countP {ds : List Text} {os : List (Outcome Text)}
    (h : List.Forall₂ DocumentFate ds os) (d : Text) :
    (successes os).count d + (failures os).countP (·.isAbout d) = ds.count d := by
  induction h with
  | nil => rfl
  | @cons d' o ds os ho _ ih =>
    rcases ho with rfl | ⟨f, rfl, rfl⟩
    · rw [successes_ok, failures_ok, List.count_cons, List.count_cons, ← ih]
      omega
    · rw [successes_error, failures_error, List.countP_cons, List.count_cons, ← ih]
      have habout : (Failure.writing f).isAbout d = (f.path == d) := rfl
      rw [habout]
      omega

theorem forall₂_byDocument {os : List (Outcome Text)} {is : List (Import × Text)}
    (h : List.Forall₂ (fun group => DocumentFate group.1) (byDocument is) os) :
    List.Forall₂ DocumentFate (is.map (·.1.source)).eraseDups os := by
  rw [byDocument, List.forall₂_map_left_iff] at h
  exact h

theorem count_of_mem {os : List (Outcome Text)} {is : List (Import × Text)}
    (h : List.Forall₂ (fun group => DocumentFate group.1) (byDocument is) os) {i : Import × Text}
    (hi : i ∈ is) :
    (successes os).count i.1.source + (failures os).countP (·.isAbout i.1.source) = 1 := by
  rw [count_add_countP (forall₂_byDocument h)]
  exact List.count_eq_one_of_mem (Text.nodup_eraseDups _)
    (List.mem_eraseDups.2 (List.mem_map_of_mem hi))

end Imports

section Pulls

variable (g : Progress p.store)

theorem PullFate.mono {log log' : List Log.Entry} {q : Pull} {o : Outcome (Option Text)}
    (hlog : log ⊆ log') (h : PullFate p log q o) : PullFate p log' q o := by
  cases h with
  | failed f => exact .failed f
  | pulled => exact .pulled
  | already hdry hmem => exact .already hdry (hlog hmem)

theorem log_pull {files : Files.Tree} {q : Pull} {c : Custom} {action : Action}
    (h : (Writer.pull files q c).outcome = .ok action) :
    action = .patched ∨ action = .unchanged ∧ alreadyPulled q ∈ (Writer.pull files q c).log := by
  unfold Writer.pull at h ⊢
  split at h
  next => cases h
  next text _ =>
    split at h
    next out _ =>
      unfold Writer.put at h
      split at h
      next => cases h
      next => exact .inl (Except.ok.inj h).symm
    next =>
      split at h
      next hdone => exact .inr ⟨(Except.ok.inj h).symm, by simp [hdone, alreadyPulled]⟩
      next => cases h

theorem fate_writePull (q : Pull) :
    PullFate p (writePull p g q).2.log q (writePull p g q).1 ∧ g.log ⊆ (writePull p g q).2.log := by
  rw [writePull_eq]
  cases p.store.customFor? q with
  | none => exact ⟨.failed _, List.subset_append_left ..⟩
  | some c =>
    dsimp only
    cases hdry : p.options.dryRun with
    | true =>
      rw [perform_of_dryRun hdry]
      exact ⟨.pulled, List.Subset.refl _⟩
    | false =>
      unfold perform
      simp only [hdry, Bool.false_eq_true, if_false]
      cases hstep : (Writer.pull g.files q c).outcome with
      | error f =>
        exact ⟨.failed _, fun _ h => List.mem_append_left _ (List.mem_append_left _ h)⟩
      | ok action =>
        refine ⟨?_, List.subset_append_left ..⟩
        rcases log_pull hstep with rfl | ⟨rfl, hmem⟩
        · exact .pulled
        · exact .already hdry (List.mem_append_right _ hmem)

theorem fate_each_writePull (qs : List Pull) :
    List.Forall₂ (PullFate p (each (writePull p) g qs).2.log) qs (each (writePull p) g qs).1 ∧
      g.log ⊆ (each (writePull p) g qs).2.log := by
  induction qs generalizing g with
  | nil => exact ⟨.nil, List.Subset.refl _⟩
  | cons q qs ih =>
    obtain ⟨hfate, hlog⟩ := fate_writePull g q
    obtain ⟨hfates, hlogs⟩ := ih (writePull p g q).2
    exact ⟨.cons (hfate.mono hlogs) hfates, List.Subset.trans hlog hlogs⟩

theorem length_filterMap_id_add (os : List (Option Text)) :
    (os.filterMap id).length + os.countP (·.isNone) = os.length := by
  rw [List.length_filterMap_eq_countP, List.length_eq_countP_add_countP Option.isSome]
  exact congrArg _ (List.countP_congr fun o _ => by cases o <;> simp)

end Pulls

theorem length_failures_readDocument (files : Files.Tree) (documents : List Document) :
    (failures (each (readDocument files) [] documents).1).length =
      (documents.filter fun d => !(files.read d.path).isOk).length := by
  rw [fst_each_readDocument]
  induction documents with
  | nil => rfl
  | cons d documents ih =>
    rw [List.map_cons, readDocument]
    cases hread : files.read d.path with
    | ok content =>
      rw [List.filter_cons_of_neg (by simp [hread, Except.isOk, Except.toBool])]
      exact ih
    | error e =>
      rw [List.filter_cons_of_pos (by simp [hread, Except.isOk, Except.toBool])]
      exact congrArg (· + 1) ih

theorem balanced_write {outputs : List Output} {faults : List Config.Fault}
    (hselected : p.selected = .ok outputs)
    (hfaults : faults.length = (p.store.configs.flatMap Config.badLines).length)
    (files : Files.Tree) (documents : List Document) (log : List Log.Entry) :
    let result := write p (each (readDocument files) [] documents).1 faults outputs files log
    ∃ account, result.outcome = .ok account ∧ Balanced p files documents result.log account := by
  have hsublist := (p.sublist_of_selected hselected).trans List.filter_sublist
  have hlength := hsublist.length_le
  refine ⟨_, rfl, ?outputs, ?written, ?injections, ?injected, ?imports, ?pulls, ?pulled, ?failures⟩
  case outputs =>
    exact ⟨outputs, hsublist, forall₂_each (fun g out => fst_carryOut (outputTask p out) g) _ _⟩
  case written =>
    have hsum := length_successes_add_length_failures
      (each (writeOutput p) (⟨files, [], log⟩ : Progress p.store) outputs).1
    rw [length_each] at hsum
    dsimp only [Account.report]
    omega
  case injections =>
    exact forall₂_each (fun g inj => fst_carryOut (injectionTask p inj) g) _ _
  case injected =>
    exact (length_successes_add_length_failures _).trans (length_each ..)
  case imports =>
    refine forall₂_of_mem (forall₂_each fst_readImport _ _) fun i o ho hfate => ?_
    rcases hfate with hfailed | ⟨content, rfl⟩
    · exact .inl hfailed
    · refine .inr ⟨⟨content, rfl⟩, ?_⟩
      exact count_of_mem (forall₂_each fst_writeImports _ _) (mem_successes.2 ho)
  case pulls => exact (fate_each_writePull _ _).1
  case pulled =>
    rw [Nat.add_right_comm]
    dsimp only [Account.report]
    rw [length_filterMap_id_add, length_successes_add_length_failures]
    exact length_each ..
  case failures =>
    simp only [Account.report, Account.failures, List.length_map, List.length_append, hfaults,
      length_failures_readDocument]

theorem run_balanced {env : Environment} {options : Options} {overrides : Overrides}
    {files : Files.Tree} {account : Account}
    (h : (run env options overrides files).outcome = .ok account) :
    ∃ documents, documentsIn env options overrides files = .ok documents ∧
      Balanced (planOf env options overrides (blocksOf files documents)) files documents
        (run env options overrides files).log account := by
  cases hdocuments : documentsIn env options overrides files with
  | error f =>
    rw [run_of_scan_error hdocuments] at h
    cases h
  | ok documents =>
    obtain ⟨outputs, hselected⟩ := exists_selected hdocuments h
    obtain ⟨log, hrun⟩ := run_eq_write hdocuments hselected
    obtain ⟨account', haccount, hbalanced⟩ := balanced_write hselected
      (Config.length_resolve (options.override env overrides) _) files documents log
    rw [hrun] at h ⊢
    obtain rfl := Except.ok.inj (haccount.symm.trans h)
    exact ⟨documents, rfl, hbalanced⟩

section Examples

def mishaps : Files.Tree where
  medium := .disk
  entries := [("/", .directory), ("/proj", .directory), ("/proj/u.md", .file []),
    ("/proj/s", .file "s"), ("/proj/t", .file "\x7b\x7b\x7b here \x7d\x7d\x7d\n"),
    ("/proj/a.md", .file (
      "```c lit-type:config lit-name:general\nmax_passes=0\n```\n" ++
      "```c lit-type:config lit-name:ignore\nskip\n```\n" ++
      "```c lit-type:output lit-file:skip\n```\n```c lit-type:output lit-file:x\n```\n" ++
      "```c lit-type:output lit-file:y\n\x7b\x7b\x7b r \x7d\x7d\x7d\n```\n" ++
      "```c lit-type:reference lit-name:r lit-file:no/file\n```\n")),
    ("/proj/b.md", .file (
      "```c lit-type:injection lit-name:here lit-file:t\n```\n" ++
      "```c lit-type:injection lit-name:there lit-file:no/file\n```\n" ++
      "```c lit-type:import lit-file:s\n```\n```c lit-type:import lit-file:no/file\n```\n" ++
      "<!-- pull_from: c.md, block: b -->\n<!-- pull_from: c.md, block: none -->\n")),
    ("/proj/c.md", .file (
      "```md lit-type:output lit-file:d.md\n" ++
        "<!-- pull_from: c.md, block: b, processed: true -->\n```\n" ++
      "<!-- block: b -->\nz\n<!-- end_block -->\n")),
    ("/proj/d.md", .file (
      "```c lit-type:import lit-file:s\n```\n<!-- pull_from: c.md, block: b -->\n"))]
  denied := { read := ["/proj/u.md"] }

def mishapsDocuments : List Document :=
  [⟨"/proj/a.md", []⟩, ⟨"/proj/b.md", []⟩, ⟨"/proj/c.md", []⟩, ⟨"/proj/d.md", []⟩,
    ⟨"/proj/u.md", []⟩]

def mishapsReport : Report where
  documents := 5
  written := ["/proj/x", "/proj/d.md"]
  injected := ["/proj/t"]
  imported := ["/proj/b.md"]
  pulled := ["/proj/b.md"]
  filtered := 1
  failures := ["open /proj/u.md: permission denied",
    "/proj/a.md:2: max_passes must be a positive integer, got \"0\"",
    "output y: reference r: read no/file: open /proj/no/file: no such file or directory",
    "/proj/no/file: target file does not exist",
    "import no/file: read no/file: open /proj/no/file: no such file or directory",
    "/proj/d.md: import block lines 1-2 outside document of 1 lines",
    "pulled block not found: none in /proj/c.md"]

theorem documentsIn_mishaps : documentsIn atRoot project {} mishaps = .ok mishapsDocuments := by
  rw [documentsIn, Scan.scan_eq_insertionSort]
  decide +kernel

theorem runOn_mishaps :
    (runOn atRoot project {} mishaps mishapsDocuments).outcome.toOption.map Account.report =
        some mishapsReport ∧
      (runOn atRoot project {} mishaps mishapsDocuments).files.get? "/proj/no/file" = none := by
  decide +kernel

end Examples

theorem run_balanced_mishaps :
    ∃ account, (run atRoot project {} mishaps).outcome = .ok account ∧
      account.report = mishapsReport ∧
      ∃ documents, documentsIn atRoot project {} mishaps = .ok documents ∧
        Balanced (planOf atRoot project {} (blocksOf mishaps documents)) mishaps documents
          (run atRoot project {} mishaps).log account := by
  obtain ⟨account, houtcome, hreport⟩ := exists_account runOn_mishaps.1
  rw [← run_eq_runOn documentsIn_mishaps] at houtcome
  exact ⟨account, houtcome, hreport, run_balanced houtcome⟩

end Run

end Tangle
