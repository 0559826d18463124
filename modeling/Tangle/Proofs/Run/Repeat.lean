import Tangle.Proofs.Run.Again
import Tangle.Proofs.Run.Plan
import Tangle.Proofs.Scan

namespace Tangle

open Text Files Files.Tree

theorem Environment.isAbsolute_base {env : Environment} (h : Path.isAbsolute env.cwd = true)
    (p : Text) : Path.isAbsolute (env.base p).path = true := by
  unfold Environment.base Base.ofPath Path.absolute
  rw [Path.isAbsolute_clean]
  exact (Path.isFull_against h p).absolute

namespace Run

structure Completed (p : Plan) (files final : Files.Tree) (documents : List Document)
    (outputs : List Output) (log : List Log.Entry) : Prop where
  read : ∀ d ∈ documents, files.read d.path = .ok (textOf files d)
  written : failures (writeOutputs p files log outputs).1 = []
  edited : Retexts (documents.map (·.path)) (writeOutputs p files log outputs).2.files final
  answered : ∀ d ∈ documents, ∀ e, (writeOutputs p files log outputs).2.files.get? d.path = some e →
    e.content = textOf files d → ∃ text, final.get? d.path = some { e with content := text } ∧
      (lex d.path d.relDir text).blocks.map Block.unplaced =
        ((lexedIn files d).blocks.map Block.unplaced).filter Block.lasts

namespace Completed

variable {p : Plan} {files final : Files.Tree} {documents : List Document} {outputs : List Output}
  {log : List Log.Entry} (h : Completed p files final documents outputs log)
  (hdry : p.options.dryRun = false)

include h hdry

theorem grows_written : Grows (outputs.map p.writer.target)
    (outputs.flatMap fun out => directoriesFor (p.writer.target out)) files
    (writeOutputs p files log outputs).2.files := by
  have hgrows := grows_writeOutputs hdry (⟨files, [], log⟩ : Progress p.store) outputs
  rwa [successes_writeOutputs_of_ok hdry h.written] at hgrows

theorem grows : Grows (outputs.map p.writer.target ++ documents.map (·.path))
    ((outputs.flatMap fun out => directoriesFor (p.writer.target out)) ++ []) files final :=
  (h.grows_written hdry).trans h.edited.grows

theorem rooted (hrooted : files.medium = .disk → files.Rooted) (hmedium : final.medium = .disk) :
    final.Rooted := by
  have hmedium : files.medium = .disk := (h.grows hdry).medium_eq.symm.trans hmedium
  exact h.edited.rooted (rooted_writeOutputs hdry hmedium (hrooted hmedium))

theorem read_again {d : Document} (hd : d ∈ documents)
    (hrooted : files.medium = .disk → files.Rooted) (habsolute : Path.isAbsolute d.path = true)
    (hspared : Spared (outputs.map p.writer.target) d.path)
    (hfile : Scan.isFile final d.path = true) :
    final.read d.path = .ok (textOf final d) ∧
      (lexedIn final d).blocks.map Block.unplaced =
        ((lexedIn files d).blocks.map Block.unplaced).filter Block.lasts := by
  obtain ⟨hdenied, e₀, he₀, hcontent, -⟩ := read_eq_ok.1 (h.read d hd)
  have hwritten : ∃ e, (writeOutputs p files log outputs).2.files.get? d.path = some e ∧
      e.content = textOf files d := by
    rcases (h.grows_written hdry).kept _ e₀ hspared he₀ with he | ⟨-, -, he⟩
    · exact ⟨_, he, hcontent⟩
    · exact ⟨_, he, hcontent⟩
  obtain ⟨e, he, hcontent⟩ := hwritten
  obtain ⟨text, htext, hblocks⟩ := h.answered d hd e he hcontent
  have hread : final.read d.path = .ok text := by
    refine read_eq_ok.2 ⟨?_, _, htext, rfl, fun hmedium => ⟨?_, ?_⟩⟩
    · rwa [(h.grows hdry).denied_eq]
    · refine (h.rooted hdry hrooted hmedium).obstacle?_eq_none htext fun hdots => ?_
      rw [← Path.isAbsolute_clean, hdots] at habsolute
      cases habsolute
    · simpa [Scan.isFile, htext] using hfile
  have htextOf : textOf final d = text := by
    rw [textOf, hread]
    rfl
  rw [lexedIn, htextOf]
  exact ⟨hread, hblocks⟩

theorem writeOutputs_again {p' : Plan} {outputs' : List Output} (hagree : Agree p p')
    (hstore : p.store.ColonFree) (hstore' : p'.store.ColonFree)
    (hrooted : files.medium = .disk → files.Rooted)
    (hspared : ∀ d ∈ documents, Spared (outputs.map p.writer.target) d.path)
    (hrefs : ∀ r ∈ p.store.references,
      Spared (outputs.map p.writer.target ++ documents.map (·.path)) (p.base.resolve r.ref.path))
    (houts : outputs'.map Output.unplaced = outputs.map Output.unplaced) (log' : List Log.Entry) :
    (writeOutputs p' final log' outputs').1 = (writeOutputs p files log outputs).1 ∧
      ∀ q, (writeOutputs p' final log' outputs').2.files.get? q = final.get? q := by
  have habreast : Abreast files final (outputs.map p.writer.target) (documents.map (·.path)) outputs
      (⟨files, [], log⟩ : Progress p.store) (⟨final, [], log'⟩ : Progress p'.store) :=
    { before := .of_grows (.refl [] [] files) (List.nil_subset _)
      ok := h.written
      targets := List.Subset.refl _
      after := h.edited
      again := .refl ..
      restored := fun _ _ => rfl
      truthful := .start
      truthful' := .start }
  have hdocuments : ∀ w ∈ outputs.map p.writer.target, Spared (documents.map (·.path)) w := by
    intro w hw q hq hkey
    obtain ⟨d, hd, rfl⟩ := List.mem_map.1 hq
    exact hspared d hd w hw hkey.symm
  obtain ⟨houtcomes, hfiles⟩ := habreast.each hagree hdry hstore hstore' hrooted
    (h.rooted hdry hrooted) hdocuments hrefs houts
  exact ⟨houtcomes.trans (fst_writeOutputs_of_ok hdry h.written).symm, hfiles⟩

end Completed

/-- A run without failures and without injections that does not get in its own way. -/
structure Undisturbed (env : Environment) (options : Options) (overrides : Overrides)
    (files : Files.Tree) (documents : List Document) (account : Account) : Prop where
  cwd : Path.isAbsolute env.cwd = true
  sound : files.Sound
  dryRun : (options.override env overrides).dryRun = false
  found : documentsIn env options overrides files = .ok documents
  outcome : (run env options overrides files).outcome = .ok account
  complete : account.failures = []
  injections : (blocksOf files documents).injections = []
  documents_spared : ∀ d ∈ documents, Spared account.report.written d.path
  found_spared : ∀ found, documentsIn env options overrides (run env options overrides files).files =
    .ok found → ∀ d ∈ found, Spared account.report.written d.path
  references_spared : ∀ r ∈ (blocksOf files documents).references,
    Spared (account.report.written ++ documents.map (·.path))
      ((rootOf env options overrides).resolve r.ref.path)
  harmless : Harmless files documents (successes account.imports)

section Examples

def atRoot : Environment := ⟨"/", none, []⟩

def project : Options := Options.defaults.withInputPath atRoot "/proj"

structure Summary where
  failures : List Failure := []
  written : List Text := []
  imported : List Text := []
  pulled : List Text := []
  contents : List (Import × Text) := []
  deriving DecidableEq

def Account.summary (a : Account) : Summary :=
  ⟨a.failures, a.report.written, a.report.imported, a.report.pulled, successes a.imports⟩

variable {files final : Files.Tree} {documents : List Document} {summary : Summary}

theorem exists_account {α : Type} {view : Account → α} {a : α} {r : Result}
    (h : r.outcome.toOption.map view = some a) :
    ∃ account, r.outcome = .ok account ∧ view account = a := by
  cases hr : r.outcome with
  | error o => simp [hr, Except.toOption] at h
  | ok account => exact ⟨account, rfl, by simpa [hr, Except.toOption] using h⟩

theorem exists_undisturbed (hsound : files.Sound)
    (hfound : documentsIn atRoot project {} files = .ok documents)
    (hfiles : (runOn atRoot project {} files documents).files = final)
    (hrun : (runOn atRoot project {} files documents).outcome.toOption.map Account.summary =
      some summary)
    (hcomplete : summary.failures = [])
    (hagain : ∀ found, documentsIn atRoot project {} final = .ok found →
      ∀ d ∈ found, Spared summary.written d.path)
    (h : (blocksOf files documents).injections = [] ∧
      (∀ d ∈ documents, Spared summary.written d.path) ∧
      (∀ r ∈ (blocksOf files documents).references,
        Spared (summary.written ++ documents.map (·.path))
          ((rootOf atRoot project {}).resolve r.ref.path)) ∧
      Harmless files documents summary.contents) :
    ∃ account, Undisturbed atRoot project {} files documents account ∧ account.summary = summary ∧
      (run atRoot project {} files).files = final := by
  rw [← run_eq_runOn hfound] at hfiles hrun
  obtain ⟨account, houtcome, rfl⟩ := exists_account hrun
  subst hfiles
  obtain ⟨hinjections, hdocuments, hreferences, hharmless⟩ := h
  exact ⟨account, ⟨by decide, hsound, rfl, hfound, houtcome, hcomplete, hinjections, hdocuments,
    hagain, hreferences, hharmless⟩, rfl, rfl⟩

def hidden : Files.Tree where
  medium := .memory
  entries := [("/", .directory), ("/proj", .directory),
    ("/proj/d.md", .file "```js lit-type:output lit-file:x.js\nbody\n```\n")]
  denied := { stat := ["/proj/x.js"] }

def hiddenAfter : Files.Tree := hidden.set "/proj/x.js" (.file "body\n")

theorem exists_undisturbed_hidden :
    ∃ account, Undisturbed atRoot project {} hidden [⟨"/proj/d.md", []⟩] account ∧
      (blocksOf hidden [⟨"/proj/d.md", []⟩]).imports = [] ∧
      ∀ account', (run atRoot project {} (run atRoot project {} hidden).files).outcome ≠
        .ok account' := by
  have hfound : documentsIn atRoot project {} hidden = .ok [⟨"/proj/d.md", []⟩] := by
    rw [documentsIn, Scan.scan_eq_insertionSort]
    decide +kernel
  have hagain : documentsIn atRoot project {} hiddenAfter =
      .error (.walk ⟨.status, "/proj/x.js", .denied⟩) := by
    rw [documentsIn, Scan.scan_eq_insertionSort]
    decide +kernel
  have hrun : (runOn atRoot project {} hidden [⟨"/proj/d.md", []⟩]).files = hiddenAfter ∧
      (runOn atRoot project {} hidden [⟨"/proj/d.md", []⟩]).outcome.toOption.map Account.summary =
        some { written := ["/proj/x.js"] } := by
    decide +kernel
  obtain ⟨account, h, -, hfiles⟩ := exists_undisturbed
    ⟨by decide +kernel, by decide +kernel, by decide⟩ hfound hrun.1 hrun.2 rfl (by simp [hagain])
    (by decide +kernel)
  rw [hfiles, run_of_scan_error hagain]
  exact ⟨account, h, by decide +kernel, by simp⟩

def nested : Files.Tree where
  medium := .memory
  entries := [("/", .directory), ("/proj", .directory),
    ("/proj/d.md", .file "```js lit-type:output lit-file:d.md/x.js\nbody\n```\n")]

def nestedAfter : Files.Tree :=
  (nested.set "/proj/d.md" ⟨"```js lit-type:output lit-file:d.md/x.js\nbody\n```\n", true⟩).set
    "/proj/d.md/x.js" (.file "body\n")

theorem exists_undisturbed_nested :
    ∃ account account', Undisturbed atRoot project {} nested [⟨"/proj/d.md", []⟩] account ∧
      (blocksOf nested [⟨"/proj/d.md", []⟩]).imports = [] ∧
      (run atRoot project {} (run atRoot project {} nested).files).outcome = .ok account' ∧
      account'.report.written ≠ account.report.written := by
  have hfound : documentsIn atRoot project {} nested = .ok [⟨"/proj/d.md", []⟩] := by
    rw [documentsIn, Scan.scan_eq_insertionSort]
    decide +kernel
  have hagain : documentsIn atRoot project {} nestedAfter = .ok [] := by
    rw [documentsIn, Scan.scan_eq_insertionSort]
    decide +kernel
  have hrun : (runOn atRoot project {} nested [⟨"/proj/d.md", []⟩]).files = nestedAfter ∧
      (runOn atRoot project {} nested [⟨"/proj/d.md", []⟩]).outcome.toOption.map Account.summary =
        some { written := ["/proj/d.md/x.js"] } := by
    decide +kernel
  have hrun' : (runOn atRoot project {} nestedAfter []).outcome.toOption.map Account.summary =
      some {} := by
    decide +kernel
  obtain ⟨account, h, hsummary, hfiles⟩ := exists_undisturbed
    ⟨by decide +kernel, by decide +kernel, by decide⟩ hfound hrun.1 hrun.2 rfl (by simp [hagain])
    (by decide +kernel)
  obtain ⟨account', houtcome, hsummary'⟩ := exists_account hrun'
  rw [← run_eq_runOn hagain, ← hfiles] at houtcome
  refine ⟨account, account', h, by decide +kernel, houtcome, ?_⟩
  change account'.summary.written ≠ account.summary.written
  rw [hsummary, hsummary']
  decide

/-- A document with two pulls. Once the first one is answered, its marker contains that of the second
one, which is then answered in the wrong place. -/
def crossed : Files.Tree where
  medium := .memory
  entries := [("/", .directory), ("/proj", .directory),
    ("/proj/d.md", .file
      "<!--pull_from:x.md,block:-->y-->\n<!-- pull_from: x.md, block: -->\n"),
    ("/proj/x.md", .file ("<!-- block: -->y -->\none\n<!-- end_block -->\n" ++
      "<!-- block: -->\ntwo\n<!-- end_block -->\n"))]

def crossedAfter : Files.Tree :=
  crossed.set "/proj/d.md" (.file ("<!-- pull_from: x.md, block:  , processed: true -->\n" ++
    "twoy, processed: true -->\none\n<!-- pull_from: x.md, block: -->\n"))

theorem exists_undisturbed_crossed :
    ∃ account account', Undisturbed atRoot project {} crossed
        [⟨"/proj/d.md", []⟩, ⟨"/proj/x.md", []⟩] account ∧
      (blocksOf crossed [⟨"/proj/d.md", []⟩, ⟨"/proj/x.md", []⟩]).imports = [] ∧
      (run atRoot project {} (run atRoot project {} crossed).files).outcome = .ok account' ∧
      account'.report.pulled ≠ [] := by
  have hfound : documentsIn atRoot project {} crossed =
      .ok [⟨"/proj/d.md", []⟩, ⟨"/proj/x.md", []⟩] := by
    rw [documentsIn, Scan.scan_eq_insertionSort]
    decide +kernel
  have hagain : documentsIn atRoot project {} crossedAfter =
      .ok [⟨"/proj/d.md", []⟩, ⟨"/proj/x.md", []⟩] := by
    rw [documentsIn, Scan.scan_eq_insertionSort]
    decide +kernel
  have hrun : (runOn atRoot project {} crossed [⟨"/proj/d.md", []⟩, ⟨"/proj/x.md", []⟩]).files =
        crossedAfter ∧
      (runOn atRoot project {} crossed [⟨"/proj/d.md", []⟩, ⟨"/proj/x.md", []⟩]).outcome.toOption.map
        Account.summary = some { pulled := ["/proj/d.md", "/proj/d.md"] } := by
    decide +kernel
  have hrun' : (runOn atRoot project {} crossedAfter
      [⟨"/proj/d.md", []⟩, ⟨"/proj/x.md", []⟩]).outcome.toOption.map Account.summary =
        some { pulled := ["/proj/d.md"] } := by
    decide +kernel
  obtain ⟨account, h, -, hfiles⟩ := exists_undisturbed
    ⟨by decide +kernel, by decide +kernel, by decide⟩ hfound hrun.1 hrun.2 rfl (by simp [Spared])
    (by decide +kernel)
  obtain ⟨account', houtcome, hsummary'⟩ := exists_account hrun'
  rw [← run_eq_runOn hagain, ← hfiles] at houtcome
  refine ⟨account, account', h, by decide +kernel, houtcome, ?_⟩
  change account'.summary.pulled ≠ []
  rw [hsummary']
  decide

/-- A run may stop the next one, keep it from finding a document, or leave it a pull to answer. -/
theorem undisturbed_not_again :
    (∃ documents account, Undisturbed atRoot project {} hidden documents account ∧
      (blocksOf hidden documents).imports = [] ∧
      ∀ account', (run atRoot project {} (run atRoot project {} hidden).files).outcome ≠
        .ok account') ∧
    (∃ documents account account', Undisturbed atRoot project {} nested documents account ∧
      (blocksOf nested documents).imports = [] ∧
      (run atRoot project {} (run atRoot project {} nested).files).outcome = .ok account' ∧
      account'.report.written ≠ account.report.written) ∧
    ∃ documents account account', Undisturbed atRoot project {} crossed documents account ∧
      (blocksOf crossed documents).imports = [] ∧
      (run atRoot project {} (run atRoot project {} crossed).files).outcome = .ok account' ∧
      account'.report.pulled ≠ [] :=
  ⟨⟨_, exists_undisturbed_hidden⟩, ⟨_, exists_undisturbed_nested⟩, _, exists_undisturbed_crossed⟩

end Examples

structure Repeatable (env : Environment) (options : Options) (overrides : Overrides)
    (files : Files.Tree) (documents : List Document) (account : Account) : Prop
    extends Undisturbed env options overrides files documents account where
  unlike : Unlike files documents
  isFile : ∀ d ∈ documents,
    Scan.isFile (run env options overrides files).files d.path = true
  accessible : Scan.Accessible (rootOf env options overrides).path files
    (run env options overrides files).files

namespace Repeatable

variable {env : Environment} {options : Options} {overrides : Overrides} {files : Files.Tree}
  {documents : List Document} {account : Account}
  (h : Repeatable env options overrides files documents account)

include h

theorem isAbsolute_root : Path.isAbsolute (rootOf env options overrides).path = true :=
  Environment.isAbsolute_base h.cwd _

theorem dryRun_plan :
    (planOf env options overrides (blocksOf files documents)).options.dryRun = false :=
  (dryRun_planOf _).trans h.dryRun

theorem completed : ∃ outputs log,
    Completed (planOf env options overrides (blocksOf files documents)) files
        (run env options overrides files).files documents outputs log ∧
      (planOf env options overrides (blocksOf files documents)).selected = .ok outputs ∧
      account.report.written =
        outputs.map (planOf env options overrides (blocksOf files documents)).writer.target ∧
      faultsOf env options overrides (blocksOf files documents) = [] := by
  obtain ⟨outputs, hselected⟩ := exists_selected h.found h.outcome
  obtain ⟨log, hrun⟩ := run_eq_write h.found hselected
  rw [write_eq h.injections] at hrun
  have houtcome := h.outcome
  have hcomplete := h.complete
  have hharmless := h.harmless
  rw [hrun] at houtcome
  obtain rfl := Except.ok.inj houtcome
  simp only [Account.failures, List.append_eq_nil_iff, List.map_eq_nil_iff] at hcomplete
  obtain ⟨⟨⟨⟨⟨⟨hdocuments, hfaults⟩, hwriting⟩, -⟩, hreading⟩, himporting⟩, hpulling⟩ := hcomplete
  have hread := read_of_failures hdocuments
  obtain ⟨hedited, hanswered⟩ := answered h.dryRun_plan rfl hread
    (Scan.nodup_documents h.isAbsolute_root h.sound h.found)
    (fun d hd => (Scan.of_mem_scan h.isAbsolute_root h.sound h.found hd).1) rfl rfl rfl hreading
    himporting hpulling hharmless h.unlike
  refine ⟨outputs, log, ⟨hread, hwriting, ?_, ?_⟩, hselected, ?_, hfaults⟩
  · rw [hrun]
    exact hedited
  · rw [hrun]
    exact hanswered
  · exact successes_writeOutputs_of_ok h.dryRun_plan hwriting

theorem documentsIn_again :
    documentsIn env options overrides (run env options overrides files).files = .ok documents := by
  obtain ⟨outputs, log, hcompleted, -, hwritten, -⟩ := h.completed
  refine Scan.scan_of_grows h.isAbsolute_root h.sound (hcompleted.grows h.dryRun_plan)
    (hcompleted.rooted h.dryRun_plan h.sound.rooted) h.accessible h.found h.isFile ?_
  intro found hfound d hd hnone w hw
  rcases List.mem_append.1 hw with hw | hw
  · exact h.found_spared found hfound d hd w (hwritten ▸ hw)
  · -- A document was there before, so nothing new has its path.
    obtain ⟨c, hc, rfl⟩ := List.mem_map.1 hw
    intro hkey
    obtain ⟨-, -, hfile⟩ := Scan.of_mem_scan h.isAbsolute_root h.sound h.found hc
    rw [get?, ← hkey, ← get?] at hnone
    simp [Scan.isFile, hnone] at hfile

theorem blocksOf_again :
    (∀ d ∈ documents, (run env options overrides files).files.read d.path =
      .ok (textOf (run env options overrides files).files d)) ∧
    (blocksOf (run env options overrides files).files documents).blocks.map Block.unplaced =
      (blocksOf files documents).lasting := by
  obtain ⟨outputs, log, hcompleted, -, hwritten, -⟩ := h.completed
  have hagain := fun d (hd : d ∈ documents) => hcompleted.read_again h.dryRun_plan hd h.sound.rooted
    (Scan.of_mem_scan h.isAbsolute_root h.sound h.found hd).2.1
    (hwritten ▸ h.documents_spared d hd) (h.isFile d hd)
  have hread := fun d hd => (hagain d hd).1
  exact ⟨hread, map_unplaced_blocksOf hcompleted.read hread fun d hd => (hagain d hd).2⟩

end Repeatable

/-- A second run writes the same outputs, has nothing to import or to pull, and leaves every file as
it is. -/
theorem run_again {env : Environment} {options : Options} {overrides : Overrides}
    {files : Files.Tree} {documents : List Document} {account : Account}
    (h : Repeatable env options overrides files documents account) :
    ∃ account', (run env options overrides (run env options overrides files).files).outcome =
        .ok account' ∧
      account'.failures = [] ∧ account'.report.written = account.report.written ∧
      account'.report.imported = [] ∧ account'.report.pulled = [] ∧
      ∀ path, (run env options overrides (run env options overrides files).files).files.get? path =
        (run env options overrides files).files.get? path := by
  obtain ⟨outputs, log, hcompleted, hselected, hwritten, hfaults⟩ := h.completed
  obtain ⟨hread, hblocks⟩ := h.blocksOf_again
  obtain ⟨hagree, hcauses⟩ :=
    @agree_planOf env options overrides _ _ (Store.lasting_eq_of_answered hblocks)
  obtain ⟨outputs', hselected', houts⟩ := hagree.selected hselected
  obtain ⟨log', hrun⟩ := run_eq_write h.documentsIn_again hselected'
  rw [write_eq_of_answered (Store.injections_of_answered hblocks h.injections)
    (Store.imports_of_answered hblocks) (Store.pulls_of_answered hblocks)] at hrun
  obtain ⟨houtcomes, hfiles⟩ := hcompleted.writeOutputs_again h.dryRun_plan hagree
    (colonFree_blocksOf hcompleted.read) (colonFree_blocksOf hread) h.sound.rooted
    (hwritten ▸ h.documents_spared) (hwritten ▸ h.references_spared) houts log'
  have hdocuments : failures (each (readDocument (run env options overrides files).files) []
      documents).1 = [] := by
    rw [fst_each_readDocument, failures_eq_nil]
    simp only [List.forall_mem_map]
    exact fun d hd => readDocument_of_read (hread d hd)
  have hfaults' : faultsOf env options overrides
      (blocksOf (run env options overrides files).files documents) = [] := by
    rwa [hfaults, List.map_nil, List.map_eq_nil_iff] at hcauses
  rw [hrun]
  refine ⟨_, rfl, ?_, ?_, rfl, rfl, hfiles⟩
  · simp only [Account.failures, hdocuments, hfaults', houtcomes, hcompleted.written]
    rfl
  · rw [hwritten, ← successes_writeOutputs_of_ok h.dryRun_plan hcompleted.written, Account.report,
      houtcomes]
    rfl

def notebook : Files.Tree where
  medium := .disk
  entries := [("/", .directory), ("/proj", .directory), ("/proj/a.txt", .file "hello"),
    ("/proj/d.md", .file ("```js lit-type:output lit-file:s/x.js\n" ++
      "\x7b\x7b\x7b r \x7d\x7d\x7d!\n```\n```js lit-type:import lit-file:a.txt\n```\n" ++
      "<!-- pull_from: e.md, block: c -->\n")),
    ("/proj/e.md", .file ("```js lit-type:reference lit-name:r lit-file:a.txt\n```\n" ++
      "<!-- block: c -->\nzzz\n<!-- end_block -->\n"))]

def notebookAfter : Files.Tree :=
  ((notebook.set "/proj/d.md" (.file ("```js lit-type:output lit-file:s/x.js\n" ++
      "\x7b\x7b\x7b r \x7d\x7d\x7d!\n```\n```js\nhello\n```\n" ++
      "<!-- pull_from: e.md, block: c, processed: true -->\nzzz\n"))).set
    "/proj/s" .directory).set "/proj/s/x.js" (.file "// Source: e.md\n// Anchor: r\nhello!\n")

theorem run_again_notebook :
    ∃ account, Repeatable atRoot project {} notebook [⟨"/proj/d.md", []⟩, ⟨"/proj/e.md", []⟩]
        account ∧
      account.report.written = [ofString "/proj/s/x.js"] ∧
      account.report.imported = [ofString "/proj/d.md"] ∧
      account.report.pulled = [ofString "/proj/d.md"] ∧
      ∃ account', (run atRoot project {} (run atRoot project {} notebook).files).outcome =
          .ok account' ∧
        account'.failures = [] ∧ account'.report.written = account.report.written ∧
        account'.report.imported = [] ∧ account'.report.pulled = [] ∧
        ∀ path, (run atRoot project {} (run atRoot project {} notebook).files).files.get? path =
          (run atRoot project {} notebook).files.get? path := by
  have hfound : documentsIn atRoot project {} notebook =
      .ok [⟨"/proj/d.md", []⟩, ⟨"/proj/e.md", []⟩] := by
    rw [documentsIn, Scan.scan_eq_insertionSort]
    decide +kernel
  have hagain : documentsIn atRoot project {} notebookAfter =
      .ok [⟨"/proj/d.md", []⟩, ⟨"/proj/e.md", []⟩] := by
    rw [documentsIn, Scan.scan_eq_insertionSort]
    decide +kernel
  have hrun : (runOn atRoot project {} notebook [⟨"/proj/d.md", []⟩, ⟨"/proj/e.md", []⟩]).files =
        notebookAfter ∧
      (runOn atRoot project {} notebook
        [⟨"/proj/d.md", []⟩, ⟨"/proj/e.md", []⟩]).outcome.toOption.map Account.summary =
          some { written := ["/proj/s/x.js"], imported := ["/proj/d.md"], pulled := ["/proj/d.md"],
                 contents := [(⟨⟨"/proj/d.md", [], 4, 5⟩, ⟨"a.txt", 0, 0, []⟩⟩, "hello\n")] } := by
    decide +kernel
  obtain ⟨account, h, hsummary, hfiles⟩ := exists_undisturbed
    ⟨by decide +kernel, by decide +kernel, fun _ => by decide +kernel⟩ hfound hrun.1 hrun.2 rfl
    (fun found hfound => Except.ok.inj (hagain.symm.trans hfound) ▸ by decide +kernel)
    (by decide +kernel)
  have hrepeatable : Repeatable atRoot project {} notebook _ account :=
    { h with
      unlike := by decide +kernel
      isFile := by rw [hfiles]; decide +kernel
      accessible := by rw [hfiles]; decide +kernel }
  exact ⟨account, hrepeatable, congrArg Summary.written hsummary,
    congrArg Summary.imported hsummary, congrArg Summary.pulled hsummary, run_again hrepeatable⟩

end Run

end Tangle
