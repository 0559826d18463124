import Tangle.Config.Load
import Tangle.Proofs.Run.Repeat
import Tangle.Proofs.Run.Step

namespace Tangle

open Text

namespace Store

/-- A line of a configuration block with this name stands for the path, seen from the directory of
its document. -/
def Lists (s : Store) (name path : Text) : Prop :=
  ∃ b ∈ s.configs, b.name = name ∧ ∃ line ∈ b.body.split lf,
    line.trim ≠ [] ∧ path = Path.against (Path.directory b.source) line.trim

end Store

namespace Config

theorem mem_listedPaths {b : Config} {path : Text} : path ∈ listedPaths b ↔
    ∃ line ∈ b.body.split lf, line.trim ≠ [] ∧
      path = Path.against (Path.directory b.source) line.trim := by
  simp only [listedPaths, List.mem_map, List.mem_filter]
  constructor
  · rintro ⟨_, ⟨⟨line, hline, rfl⟩, hne⟩, rfl⟩
    exact ⟨line, hline, by simpa using hne, rfl⟩
  · rintro ⟨line, hline, hne, rfl⟩
    exact ⟨_, ⟨⟨line, hline, rfl⟩, by simpa using hne⟩, rfl⟩

theorem lists_applyLines (source : Text) (o : Options) (n : Int) (lines : List Text) :
    (applyLines source o n lines).1.included = o.included ∧
      (applyLines source o n lines).1.ignored = o.ignored := by
  have hline : ∀ o line o', applyLine o line = .ok o' →
      o'.included = o.included ∧ o'.ignored = o.ignored := by
    intro o line o' h
    unfold applyLine at h
    grind
  induction lines generalizing o n with
  | nil => exact ⟨rfl, rfl⟩
  | cons line lines ih =>
    unfold applyLines
    cases happly : applyLine o line with
    | ok o' =>
      obtain ⟨hincluded, hignored⟩ := ih o' (n + 1)
      obtain ⟨hsame, hsame'⟩ := hline o line o' happly
      exact ⟨hincluded.trans hsame, hignored.trans hsame'⟩
    | error cause => exact ih o (n + 1)

theorem lists_resolve (o : Options) (bs : List Config) :
    (resolve o bs).1.included =
        o.included ++ (bs.filter (·.name = ofString "include")).flatMap listedPaths ∧
      (resolve o bs).1.ignored =
        o.ignored ++ (bs.filter (·.name = ofString "ignore")).flatMap listedPaths := by
  induction bs generalizing o with
  | nil => simp [resolve]
  | cons b bs ih =>
    have hnames : ofString "include" ≠ "ignore" := by decide
    obtain ⟨hincluded, hignored⟩ := ih (applyBlock o b).1
    rw [resolve]
    dsimp only
    rw [hincluded, hignored]
    unfold applyBlock
    split_ifs with hinclude hignore hgeneral
    · simp [hinclude, hnames]
    · simp [hignore, hnames.symm]
    · obtain ⟨hsame, hsame'⟩ := lists_applyLines b.source o (b.first + 1) (b.body.split lf)
      simp [hinclude, hignore, hsame, hsame']
    · simp [hinclude, hignore]

end Config

inductive Options.Initial : Options → Prop
  | defaults : Initial Options.defaults
  | load {sources : Config.Sources} {o : Options} (h : Config.load sources = .ok o) : Initial o
  | override {o : Options} (env : Environment) (overrides : Overrides) (h : Initial o) :
    Initial (o.override env overrides)

theorem Options.Initial.lists_eq_nil {o : Options} (h : o.Initial) :
    o.included = [] ∧ o.ignored = [] := by
  induction h with
  | defaults => exact ⟨rfl, rfl⟩
  | load h =>
    unfold Config.load at h
    dsimp only at h
    split at h
    next =>
      split at h
      next => cases h
      next =>
        split at h
        next => cases h
        next =>
          rw [← Except.ok.inj h]
          exact ⟨rfl, rfl⟩
    next => cases h
  | override env overrides _ ih => exact ih

namespace Selection

theorem lists_iff {base : Base} {paths : List Text} (h : ∀ path ∈ paths, Path.IsFull path)
    (p : Text) : lists base paths p = true ↔ base.resolve p ∈ paths := by
  have hmap : paths.map base.resolve = paths.map id :=
    List.map_congr_left fun path hpath => (h path hpath).against_eq base.path
  rw [lists, hmap, List.map_id, List.contains_iff_mem]

end Selection

namespace Run

variable {env : Environment} {options : Options} {overrides : Overrides} {files : Files.Tree}
  {documents : List Document}

theorem isFull_of_mem_documents (hcwd : Path.isAbsolute env.cwd = true)
    (hfound : documentsIn env options overrides files = .ok documents) {d : Document}
    (hd : d ∈ documents) : Path.IsFull d.path := by
  obtain ⟨-, ⟨names, -, hpath⟩, -⟩ := (Scan.mem_documents hfound).1 hd
  rw [← hpath]
  exact Path.isFull_append (env.isAbsolute_base hcwd _) _

theorem source_of_mem_blocksOf {b : Block} (h : b ∈ (blocksOf files documents).blocks) :
    ∃ d ∈ documents, b.region.source = d.path := by
  obtain ⟨found, hfound, hb⟩ := List.mem_flatMap.1 h
  rw [mem_successes, fst_each_readDocument] at hfound
  obtain ⟨d, hd, hread⟩ := List.mem_map.1 hfound
  rw [(readDocument_eq_ok hread).2] at hb
  exact ⟨d, hd, source_of_mem_lexedIn hb⟩

theorem mem_lists_planOf (h : options.Initial) (s : Store) (path : Text) :
    (path ∈ (planOf env options overrides s).options.included ↔ s.Lists "include" path) ∧
      (path ∈ (planOf env options overrides s).options.ignored ↔ s.Lists "ignore" path) := by
  obtain ⟨hincluded, hignored⟩ := (h.override env overrides).lists_eq_nil
  obtain ⟨hlists, hlists'⟩ := Config.lists_resolve (options.override env overrides) s.configs
  have hlisted : ∀ name, path ∈ (s.configs.filter (·.name = name)).flatMap Config.listedPaths ↔
      s.Lists name path := by
    intro name
    simp only [List.mem_flatMap, List.mem_filter, decide_eq_true_eq, Config.mem_listedPaths,
      Store.Lists, and_assoc]
  dsimp only [planOf, Options.override] at hincluded hignored hlists hlists' ⊢
  rw [hlists, hlists', hincluded, hignored, List.nil_append, List.nil_append]
  exact ⟨hlisted _, hlisted _⟩

structure Allowed (s : Store) (out : Output) (path : Text) : Prop where
  path_not_ignored : ¬ s.Lists "ignore" path
  source_not_ignored : ¬ s.Lists "ignore" out.source
  included : (∃ listed, s.Lists "include" listed) →
    s.Lists "include" path ∨ s.Lists "include" out.source

section Allowed

variable (hcwd : Path.isAbsolute env.cwd = true)
  (hfound : documentsIn env options overrides files = .ok documents)

include hcwd hfound

theorem isFull_of_lists {name path : Text} (h : (blocksOf files documents).Lists name path) :
    Path.IsFull path := by
  obtain ⟨b, hb, -, line, -, -, rfl⟩ := h
  obtain ⟨d, hd, hsource⟩ := source_of_mem_blocksOf (Store.mem_configs.1 hb)
  have hsource : b.source = d.path := hsource
  rw [hsource]
  exact Path.isFull_against
    (Path.isFull_directory (isFull_of_mem_documents hcwd hfound hd).absolute).absolute _

theorem isFull_source {out : Output} (h : out ∈ (blocksOf files documents).outputs) :
    Path.IsFull out.source := by
  obtain ⟨d, hd, hsource⟩ := source_of_mem_blocksOf (Store.mem_outputs.1 h)
  have hsource : out.source = d.path := hsource
  rw [hsource]
  exact isFull_of_mem_documents hcwd hfound hd

theorem mentions_iff {out : Output} (hout : out ∈ (blocksOf files documents).outputs)
    {paths : List Text} {name : Text}
    (hpaths : ∀ path, path ∈ paths ↔ (blocksOf files documents).Lists name path) :
    Selection.mentions (rootOf env options overrides) paths out = true ↔
      (blocksOf files documents).Lists name ((rootOf env options overrides).resolve out.path) ∨
        (blocksOf files documents).Lists name out.source := by
  have hfull : ∀ path ∈ paths, Path.IsFull path :=
    fun path hpath => isFull_of_lists hcwd hfound ((hpaths path).1 hpath)
  have hsource : (rootOf env options overrides).resolve out.source = out.source :=
    (isFull_source hcwd hfound hout).against_eq _
  rw [Selection.mentions, Bool.or_eq_true, Selection.lists_iff hfull, Selection.lists_iff hfull,
    hsource, hpaths, hpaths]

theorem allowed_of_selected (hinitial : options.Initial) {outputs : List Output} {out : Output}
    (hselected : (planOf env options overrides (blocksOf files documents)).selected = .ok outputs)
    (hout : out ∈ outputs) :
    Allowed (blocksOf files documents) out ((rootOf env options overrides).resolve out.path) := by
  have hmem := (Plan.sublist_of_selected hselected).subset hout
  rw [Selection.apply, List.mem_filter, Bool.and_eq_true, Bool.or_eq_true] at hmem
  obtain ⟨hmem, hincluded, hignored⟩ := hmem
  have hlists := @mem_lists_planOf env options overrides hinitial (blocksOf files documents)
  have hincludes := mentions_iff hcwd hfound hmem fun path => (hlists path).1
  have hignores := mentions_iff hcwd hfound hmem fun path => (hlists path).2
  rw [Bool.not_eq_true'] at hignored
  have hnot := mt hignores.2 (ne_of_eq_of_ne hignored Bool.false_ne_true)
  rw [not_or] at hnot
  refine ⟨hnot.1, hnot.2, ?_⟩
  rintro ⟨listed, hlisted⟩
  rcases hincluded with hempty | hmentions
  · have hlisted := (hlists listed).1.2 hlisted
    rw [List.isEmpty_iff.1 hempty] at hlisted
    cases hlisted
  · exact hincludes.1 hmentions

end Allowed

theorem written_allowed {account : Account} (hcwd : Path.isAbsolute env.cwd = true)
    (hinitial : options.Initial)
    (hfound : documentsIn env options overrides files = .ok documents)
    (houtcome : (run env options overrides files).outcome = .ok account)
    (hnowhere : (planOf env options overrides (blocksOf files documents)).options.outputPath = []) :
    ∃ outs : List Output, outs.Sublist (blocksOf files documents).outputs ∧
      account.report.written =
        outs.map (planOf env options overrides (blocksOf files documents)).writer.target ∧
      ∀ out ∈ outs, Allowed (blocksOf files documents) out
        ((planOf env options overrides (blocksOf files documents)).writer.target out) := by
  obtain ⟨outputs, hselected⟩ := exists_selected hfound houtcome
  obtain ⟨log, hrun⟩ := run_eq_write hfound hselected
  rw [hrun] at houtcome
  obtain rfl := Except.ok.inj houtcome
  obtain ⟨outs, hsublist, hwritten⟩ := successes_of_fates (forall₂_each
    (fun g out => fst_carryOut (outputTask (planOf env options overrides (blocksOf files documents))
      out) g) _ outputs)
  refine ⟨outs, ?_, hwritten, fun out hout => ?_⟩
  · exact hsublist.trans ((Plan.sublist_of_selected hselected).trans List.filter_sublist)
  · have htarget : (planOf env options overrides (blocksOf files documents)).writer.target out =
        (rootOf env options overrides).resolve out.path := by
      simp only [Writer.target, Plan.writer, hnowhere, ne_eq, not_true_eq_false, if_false]
      rfl
    rw [htarget]
    exact allowed_of_selected hcwd hfound hinitial hselected (hsublist.subset hout)

def listing : Files.Tree where
  medium := .memory
  entries := [("/", .directory), ("/proj", .directory), ("/proj/s", .directory),
    ("/proj/a.md", .file ("```c lit-type:output lit-file:./s/../k\n```\n" ++
      "```c lit-type:output lit-file:bad\n```\n")),
    ("/proj/s/c.md", .file ("```c lit-type:config lit-name:include\n ../a.md\n\nx\n```\n" ++
      "```c lit-type:config lit-name:ignore\n/proj/s/../bad\n```\n" ++
      "```c lit-type:output lit-file:x\n```\n```c lit-type:output lit-file:y\n```\n"))]

def listingDocuments : List Document := [⟨"/proj/a.md", []⟩, ⟨"/proj/s/c.md", "s/"⟩]

theorem written_allowed_listing :
    ∃ account, (run atRoot project {} listing).outcome = .ok account ∧
      account.report.written = [ofString "/proj/k", ofString "/proj/s/x"] ∧
      ∃ outs : List Output, outs.Sublist (blocksOf listing listingDocuments).outputs ∧
        account.report.written =
          outs.map (planOf atRoot project {} (blocksOf listing listingDocuments)).writer.target ∧
        ∀ out ∈ outs, Allowed (blocksOf listing listingDocuments) out
          ((planOf atRoot project {} (blocksOf listing listingDocuments)).writer.target out) := by
  have hfound : documentsIn atRoot project {} listing = .ok listingDocuments := by
    rw [documentsIn, Scan.scan_eq_insertionSort]
    decide +kernel
  have hrun : (runOn atRoot project {} listing listingDocuments).outcome.toOption.map
      (·.report.written) = some [ofString "/proj/k", ofString "/proj/s/x"] := by
    decide +kernel
  obtain ⟨account, houtcome, hwritten⟩ := exists_account hrun
  rw [← run_eq_runOn hfound] at houtcome
  exact ⟨account, houtcome, hwritten, written_allowed (by decide) (.override _ _ .defaults) hfound
    houtcome (by decide +kernel)⟩

end Run

end Tangle
