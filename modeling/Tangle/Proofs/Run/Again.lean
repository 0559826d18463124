import Tangle.Proofs.Run.Documents

/-!
The output phase once more. An output that was written can be written again, for its directory and
its file are there by then. The two phases go side by side: at each output the second one finds what
the first one found, and it comes to the text that its file holds already or will hold in the end.
-/

namespace Tangle

open Text Files Files.Tree

namespace Writer

variable {w : Writer} {files : Files.Tree} {out : Output} {content : Text}

theorem target_eq_of_unplaced {out' : Output} (h : out'.unplaced = out.unplaced) :
    w.target out' = w.target out :=
  show w.target out'.unplaced = w.target out.unplaced by rw [h]

theorem writable_of_ok {a : Action} (h : (w.writeOutput files out content).outcome = .ok a) :
    (w.writeOutput files out content).files.Writable (w.target out) := by
  unfold writeOutput at h ⊢
  dsimp only at h ⊢
  cases hmake : files.makeDirectory (Path.directory (w.target out)) with
  | error e => simp [hmake, Step.fail] at h
  | ok files' =>
    rw [hmake] at h
    dsimp only at h ⊢
    unfold put at h ⊢
    cases hwrite : files'.write (w.target out) content with
    | error e => simp [hwrite, Step.fail] at h
    | ok files'' => exact .of_write hmake hwrite

theorem writeOutput_of_writable {e : Entry} (content : Text) (h : files.Writable (w.target out))
    (hrooted : files.medium = .disk → files.Rooted) (he : files.get? (w.target out) = some e) :
    (∃ a, (w.writeOutput files out content).outcome = .ok a) ∧
      (w.writeOutput files out content).files = files.set (w.target out) { e with content } := by
  unfold writeOutput
  dsimp only
  rw [h.makeDirectory_eq hrooted]
  unfold put
  dsimp only
  rw [h.write_eq hrooted he content]
  exact ⟨⟨_, rfl⟩, rfl⟩

theorem rooted_writeOutput (hmedium : files.medium = .disk) (h : files.Rooted) :
    (w.writeOutput files out content).files.Rooted := by
  unfold writeOutput
  dsimp only
  cases hmake : files.makeDirectory (Path.directory (w.target out)) with
  | error e => exact h
  | ok files' =>
    have hrooted := (of_makeDirectory hmake).2.2 hmedium h
    have hmedium' := (grows_makeDirectory hmake).medium_eq.trans hmedium
    unfold put
    dsimp only
    cases hwrite : files'.write (w.target out) content with
    | error e => exact hrooted
    | ok files'' => exact hrooted.write hmedium' hwrite

end Writer

namespace Run

variable {p p' : Plan}

section Step

variable {g : Progress p.store} {out : Output}

theorem writable_writeOutput {path : Text} (hdry : p.options.dryRun = false)
    (h : (writeOutput p g out).1 = .ok path) :
    (writeOutput p g out).2.files.Writable (p.writer.target out) := by
  cases hr : resolved p g out with
  | error f =>
    obtain ⟨houtcome, -⟩ := writeOutput_of_error g out hr
    cases houtcome.symm.trans h
  | ok text =>
    obtain ⟨hfiles, houtcome⟩ := writeOutput_of_ok g out hdry hr
    rw [hfiles]
    cases hstep : (p.writer.writeOutput g.files out text).outcome with
    | error f =>
      rw [hstep] at houtcome
      cases houtcome.symm.trans h
    | ok a => exact Writer.writable_of_ok hstep

theorem rooted_writeOutput (hdry : p.options.dryRun = false) (hmedium : g.files.medium = .disk)
    (h : g.files.Rooted) : (writeOutput p g out).2.files.Rooted := by
  cases hr : resolved p g out with
  | error f =>
    rw [(writeOutput_of_error g out hr).2]
    exact h
  | ok text =>
    rw [(writeOutput_of_ok g out hdry hr).1]
    exact Writer.rooted_writeOutput hmedium h

theorem rooted_writeOutputs (hdry : p.options.dryRun = false) {outputs : List Output}
    (hmedium : g.files.medium = .disk) (h : g.files.Rooted) :
    (each (writeOutput p) g outputs).2.files.Rooted := by
  induction outputs generalizing g with
  | nil => exact h
  | cons out outputs ih =>
    have hgrows := grows_writeOutputs hdry g [out]
    exact ih (hgrows.medium_eq.trans hmedium) (rooted_writeOutput hdry hmedium h)

theorem truthful_writeOutput (h : (p.context g.files).Truthful ((p.context g.files).start g.memo))
    (hread : ∀ r ∈ p.store.references, ∀ content,
      g.files.read (p.base.resolve r.ref.path) = .ok content →
      (writeOutput p g out).2.files.read (p.base.resolve r.ref.path) = .ok content) :
    (p.context (writeOutput p g out).2.files).Truthful
      ((p.context (writeOutput p g out).2.files).start (writeOutput p g out).2.memo) := by
  intro i text hi
  rw [memo_writeOutput] at hi
  exact ((Agree.refl p).embeds hread).settles rfl (h.resolve out.body i text hi)

theorem fst_writeOutputs_of_ok (hdry : p.options.dryRun = false) {outputs : List Output}
    (h : failures (each (writeOutput p) g outputs).1 = []) :
    (each (writeOutput p) g outputs).1 = outputs.map fun out => .ok (p.writer.target out) := by
  induction outputs generalizing g with
  | nil => rfl
  | cons out outputs ih =>
    have hall := failures_eq_nil.1 h
    simp only [each, List.forall_mem_cons] at hall ⊢
    obtain ⟨⟨path, hpath⟩, hrest⟩ := hall
    rw [List.map_cons, ih (failures_eq_nil.2 hrest)]
    rcases writeOutput_cases g out hdry with ⟨f, hf, -⟩ | ⟨text, -, hok, -⟩
    · cases hf.symm.trans hpath
    · rw [hok]

theorem successes_writeOutputs_of_ok (hdry : p.options.dryRun = false) {outputs : List Output}
    (h : failures (each (writeOutput p) g outputs).1 = []) :
    successes (each (writeOutput p) g outputs).1 = outputs.map p.writer.target := by
  rw [fst_writeOutputs_of_ok hdry h, successes, List.filterMap_map, ← List.filterMap_eq_map]
  rfl

end Step

section Later

variable {written : List Text} {t t' t'' : Files.Tree}

def Later (written : List Text) (t t' : Files.Tree) : Prop := ∃ dirs, Grows written dirs t t'

theorem Later.refl (written : List Text) (t : Files.Tree) : Later written t t := ⟨[], .refl ..⟩

theorem Later.of_grows {fewer dirs : List Text} (h : Grows fewer dirs t t')
    (hsub : fewer ⊆ written) :
    Later written t t' :=
  ⟨dirs, h.mono hsub (List.Subset.refl _)⟩

theorem Later.trans (h : Later written t t') (h' : Later written t' t'') : Later written t t'' := by
  obtain ⟨dirs, h⟩ := h
  obtain ⟨dirs', h'⟩ := h'
  exact .of_grows (h.trans h') (by simp)

theorem Later.read {q content : Text} (hfrom : Later written t t') (h : Later written t' t'')
    (hrooted : t.medium = .disk → t.Rooted) (hq : Spared written q)
    (hread : t'.read q = .ok content) : t''.read q = .ok content := by
  obtain ⟨dirs, hfrom⟩ := hfrom
  obtain ⟨dirs', h⟩ := h
  refine hfrom.read_later h hrooted (fun w hw => ?_) hread
  exact hq w ((List.mem_append.1 hw).elim id id)

end Later

section Abreast

/-- Two runs before the same outputs. The first one, which started from `files`, is to write all of
them and to end up with `final` once it has edited the documents. The second one started there. -/
structure Abreast (files final : Files.Tree) (written documents : List Text) (outputs : List Output)
    (g : Progress p.store) (g' : Progress p'.store) : Prop where
  before : Later (written ++ documents) files g.files
  ok : failures (each (writeOutput p) g outputs).1 = []
  targets : outputs.map p.writer.target ⊆ written
  after : Retexts documents (each (writeOutput p) g outputs).2.files final
  again : Retexts written final g'.files
  restored : ∀ q, Spared (outputs.map p.writer.target) q → g'.files.get? q = final.get? q
  truthful : (p.context g.files).Truthful ((p.context g.files).start g.memo)
  truthful' : (p'.context g'.files).Truthful ((p'.context g'.files).start g'.memo)

variable {files final : Files.Tree} {written documents : List Text} {outputs : List Output}
  {out : Output} {g : Progress p.store} {g' : Progress p'.store}

theorem Abreast.writeOutput_eq_ok (hdry : p.options.dryRun = false)
    (h : Abreast files final written documents (out :: outputs) g g') :
    (writeOutput p g out).1 = .ok (p.writer.target out) ∧
      failures (each (writeOutput p) (writeOutput p g out).2 outputs).1 = [] := by
  have houtcomes := fst_writeOutputs_of_ok hdry h.ok
  have hall := failures_eq_nil.1 h.ok
  simp only [each, List.map_cons, List.cons.injEq, List.forall_mem_cons] at houtcomes hall
  exact ⟨houtcomes.1, failures_eq_nil.2 hall.2⟩

theorem Abreast.later (hdry : p.options.dryRun = false)
    (h : Abreast files final written documents (out :: outputs) g g') :
    Later (written ++ documents) g.files (writeOutput p g out).2.files ∧
      Later (written ++ documents) (writeOutput p g out).2.files final ∧
      Later (written ++ documents) final g'.files := by
  obtain ⟨hok, hrest⟩ := h.writeOutput_eq_ok hdry
  have htargets := h.targets
  rw [List.map_cons, List.cons_subset] at htargets
  refine ⟨?_, ?_, .of_grows h.again.grows (List.subset_append_left ..)⟩
  · rcases writeOutput_cases g out hdry with ⟨f, hf, -⟩ | ⟨text, -, -, hgrows, -⟩
    · cases hf.symm.trans hok
    · exact .of_grows hgrows (by simp [htargets.1])
  · have hgrows := grows_writeOutputs hdry (writeOutput p g out).2 outputs
    rw [successes_writeOutputs_of_ok hdry hrest] at hgrows
    refine (Later.of_grows hgrows ?_).trans (.of_grows h.after.grows (List.subset_append_right ..))
    exact List.Subset.trans htargets.2 (List.subset_append_left ..)

theorem Abreast.get?_final {e : Entry} (hdry : p.options.dryRun = false)
    (h : Abreast files final written documents (out :: outputs) g g')
    (hwritten : Spared documents (p.writer.target out))
    (hlast : Spared (outputs.map p.writer.target) (p.writer.target out))
    (he : (writeOutput p g out).2.files.get? (p.writer.target out) = some e) :
    ∃ e', final.get? (p.writer.target out) = some e' ∧ e'.content = e.content := by
  obtain ⟨-, hrest⟩ := h.writeOutput_eq_ok hdry
  have hgrows := grows_writeOutputs hdry (writeOutput p g out).2 outputs
  rw [successes_writeOutputs_of_ok hdry hrest] at hgrows
  rw [h.after.kept _ hwritten]
  rcases hgrows.kept _ e hlast he with he | ⟨-, -, he⟩
  · exact ⟨_, he, rfl⟩
  · exact ⟨_, he, rfl⟩

section Side

variable (hagree : Agree p p') (hdry : p.options.dryRun = false) (hstore : p.store.ColonFree)
  (hstore' : p'.store.ColonFree) (hrooted : files.medium = .disk → files.Rooted)
  (hrooted' : final.medium = .disk → final.Rooted)
  (hspared : ∀ w ∈ written, Spared documents w)
  (hrefs : ∀ r ∈ p.store.references, Spared (written ++ documents) (p.base.resolve r.ref.path))

include hagree hdry hstore hstore' hrooted hrooted' hspared hrefs

theorem Abreast.step {out' : Output}
    (h : Abreast files final written documents (out :: outputs) g g')
    (hout : out'.unplaced = out.unplaced) :
    (writeOutput p' g' out').1 = .ok (p.writer.target out) ∧
      Abreast files final written documents outputs (writeOutput p g out).2
        (writeOutput p' g' out').2 := by
  obtain ⟨hok, hrest⟩ := h.writeOutput_eq_ok hdry
  obtain ⟨hnext, hfinal, hnow⟩ := h.later hdry
  have hmem : p.writer.target out ∈ written := h.targets (by simp)
  have hdry' : p'.options.dryRun = false := hagree.options_eq ▸ hdry
  have htarget : p'.writer.target out' = p.writer.target out := by
    rw [Writer.target_eq_of_unplaced hout, Plan.writer, hagree.options_eq, hagree.base_eq]
    rfl
  have hbody : out'.body = out.body :=
    show out'.unplaced.body = out.unplaced.body by rw [hout]
  have hmedium : g'.files.medium = .disk → g'.files.Rooted := fun hmedium =>
    h.again.rooted (hrooted' (h.again.medium_eq.symm.trans hmedium))
  rcases writeOutput_cases g out hdry with ⟨f, hf, -⟩ | ⟨text, htext, -, -, e, he, rfl⟩
  · cases hf.symm.trans hok
  -- The second run finds every reference as the first one does, so the text is the same.
  have hembeds : (p.context g.files).Embeds (p'.context g'.files) _ :=
    hagree.embeds fun r hr content =>
      h.before.read (hnext.trans (hfinal.trans hnow)) hrooted (hrefs r hr)
  have htext' : resolved p' g' out' = .ok e.content := by
    unfold resolved at htext ⊢
    rw [hbody]
    exact hembeds.resolve hstore hstore' h.truthful h.truthful' htext
  -- It can be written, since it has been.
  have hwritable : g'.files.Writable (p'.writer.target out') := by
    rw [htarget]
    obtain ⟨dirs, hgrows⟩ := hfinal.trans hnow
    exact (writable_writeOutput hdry hok).grows hgrows
  obtain ⟨e', he', -⟩ := hwritable.file
  obtain ⟨hfiles, houtcome⟩ := writeOutput_of_ok g' out' hdry' htext'
  obtain ⟨⟨a, ha⟩, hset⟩ :=
    Writer.writeOutput_of_writable e.content hwritable hmedium he'
  rw [ha] at houtcome
  rw [hset, htarget] at hfiles
  rw [htarget] at houtcome he'
  have hretexts : Retexts [p.writer.target out] g'.files (writeOutput p' g' out').2.files := by
    rw [hfiles]
    exact .set he' _
  refine ⟨houtcome, ?_⟩
  exact
    { before := h.before.trans hnext
      ok := hrest
      targets := List.Subset.trans (List.subset_cons_self ..) h.targets
      after := h.after
      again := (h.again.trans hretexts).mono (by simp [hmem])
      restored := fun q hq => by
        rw [hfiles, get?_set]
        split
        next hkey =>
          have hlast : Spared (outputs.map p.writer.target) (p.writer.target out) := by
            intro w hw
            rw [← hkey]
            exact hq w hw
          obtain ⟨e₁, he₁, hcontent⟩ := h.get?_final hdry (hspared _ hmem) hlast he
          have hshape : e'.isDirectory = e₁.isDirectory := by
            simpa [he', he₁] using h.again.shape (p.writer.target out)
          have hq : final.get? q = some e₁ := by rw [get?, hkey, ← he₁, get?]
          rw [hq, ← hcontent, hshape]
        next hkey =>
          apply h.restored
          rw [List.map_cons]
          exact List.forall_mem_cons.2 ⟨fun heq => hkey heq.symm, hq⟩
      truthful := truthful_writeOutput h.truthful fun r hr content =>
        h.before.read hnext hrooted (hrefs r hr)
      truthful' := by
        refine truthful_writeOutput h.truthful' fun r hr content => ?_
        obtain ⟨r₀, hr₀, href⟩ := hagree.exists_reference hr
        rw [hagree.base_eq, ← href]
        refine (h.before.trans (hnext.trans (hfinal.trans hnow))).read ?_ hrooted (hrefs r₀ hr₀)
        exact .of_grows hretexts.grows (by simp [hmem]) }

theorem Abreast.each {outputs' : List Output}
    (h : Abreast files final written documents outputs g g')
    (houts : outputs'.map Output.unplaced = outputs.map Output.unplaced) :
    (each (writeOutput p') g' outputs').1 = outputs.map (fun out => .ok (p.writer.target out)) ∧
      ∀ q, (Run.each (writeOutput p') g' outputs').2.files.get? q = final.get? q := by
  induction outputs generalizing outputs' g g' with
  | nil =>
    obtain rfl := List.map_eq_nil_iff.1 houts
    exact ⟨rfl, fun q => h.restored q (by simp [Spared])⟩
  | cons out outputs ih =>
    cases outputs' with
    | nil => simp at houts
    | cons out' outputs' =>
      rw [List.map_cons, List.map_cons, List.cons.injEq] at houts
      obtain ⟨hok, hnext⟩ :=
        h.step hagree hdry hstore hstore' hrooted hrooted' hspared hrefs houts.1
      obtain ⟨hrest, hfiles⟩ := ih hnext houts.2
      exact ⟨congrArg₂ List.cons hok hrest, hfiles⟩

end Side

end Abreast

end Run

end Tangle
