import Tangle.Proofs.Run.Documents

namespace Tangle

open Text Files Files.Tree

/-- Whatever is not in `written` has the text that it had. New are only directories in `dirs`, and
only there and in memory does a file become a directory, which keeps its text. -/
structure Files.Tree.SameTexts (written dirs : List Text) (t t' : Tree) : Prop where
  kept : ∀ q e, Spared written q → t.get? q = some e →
    ∃ e', t'.get? q = some e' ∧ e'.content = e.content ∧
      (e'.isDirectory = e.isDirectory ∨
        t.medium = .memory ∧ ¬ Spared dirs q ∧ e'.isDirectory = true)
  added : ∀ q, Spared written q → t.get? q = none →
    t'.get? q = none ∨ ¬ Spared dirs q ∧ t'.get? q = some .directory
  read : (t.medium = .disk → t.Rooted) → ∀ q content, Spared written q →
    t.read q = .ok content → t'.read q = .ok content

theorem Files.Tree.Grows.sameTexts {written dirs : List Text} {t t' : Tree}
    (h : Grows written dirs t t') : SameTexts written dirs t t' where
  kept q e hq he := by
    rcases h.kept q e hq he with he' | ⟨hmedium, hdirs, he'⟩
    · exact ⟨e, he', rfl, .inl rfl⟩
    · exact ⟨_, he', rfl, .inr ⟨hmedium, hdirs, rfl⟩⟩
  added := h.added
  read hrooted _ _ hq hread := h.read hrooted hq hread

namespace Writer

variable {α : Type} {files : Files.Tree} {path content : Text} {dirs : List Text}

/-- A step that changes no text if it fails, and else no text but that of `path`, which then is a
text that `Intended` asks for. -/
structure Step.Confined (files : Files.Tree) (path : Text) (dirs : List Text)
    (Intended : Text → Prop) (step : Step α) : Prop where
  failed : ∀ f, step.outcome = .error f → SameTexts [] dirs files step.files
  done : ∀ a, step.outcome = .ok a → SameTexts [path] dirs files step.files ∧
    ∃ e, step.files.get? path = some e ∧ Intended e.content

namespace Step.Confined

variable {Intended : Text → Prop}

theorem fail (f : Failure) : (Step.fail files f : Step α).Confined files path dirs Intended where
  failed _ _ := (Grows.refl ..).sameTexts
  done _ h := by cases h

theorem idle {text : Text} (hread : files.read path = .ok text) (htext : Intended text) (a : α)
    (log : List Log.Entry) : (⟨.ok a, files, log⟩ : Step α).Confined files path dirs Intended where
  failed _ h := by cases h
  done _ _ := by
    obtain ⟨-, e, he, rfl, -⟩ := read_eq_ok.1 hread
    exact ⟨(Grows.refl ..).sameTexts, e, he, htext⟩

theorem put {text : Text} (hread : files.read path = .ok text) (hcontent : Intended content)
    (result : α) (entry : Log.Entry) :
    (put files path content result entry).Confined files path [] Intended where
  failed f h := by
    unfold Writer.put at h ⊢
    split
    next => exact (Grows.refl ..).sameTexts
    next hwrite => simp [hwrite] at h
  done a h := by
    obtain ⟨hretexts, e, -, -, he⟩ := Run.of_put_eq_ok hread h
    exact ⟨hretexts.grows.sameTexts, _, he, hcontent⟩

end Step.Confined

variable (w : Writer) (files)

theorem confined_writeOutput (out : Output) (content : Text) :
    (w.writeOutput files out content).Confined files (w.target out)
      (directoriesFor (w.target out)) (· = content) := by
  rcases w.writeOutput_cases files out content with ⟨f, hf, hgrows⟩ | ⟨a, ha, hgrows, hcontent⟩
  · exact ⟨fun _ _ => hgrows.sameTexts, fun a ha => by simp [hf] at ha⟩
  · exact ⟨fun f hf => by simp [ha] at hf, fun _ _ => ⟨hgrows.sameTexts, hcontent⟩⟩

theorem confined_inject (inj : Injection) (content : Text) :
    (w.inject files inj content).Confined files (w.injectionTarget inj) [] fun new =>
      ∃ old, files.read (w.injectionTarget inj) = .ok old ∧
        Patch.inject? old inj.placeholder content = some new := by
  unfold inject
  dsimp only
  split
  next => split <;> exact .fail _
  next old hread =>
    split
    next => exact .fail _
    next new hnew => exact .put hread ⟨old, hread, hnew⟩ ..

theorem confined_importInto (document : Text) (imports : List (Import × Text)) :
    (importInto files document imports).Confined files document [] fun new =>
      ∃ old, files.read document = .ok old ∧ Patch.spliceImports old imports = .ok new := by
  unfold importInto
  split
  next => exact .fail _
  next old hread =>
    split
    next => exact .fail _
    next new hnew => exact .put hread ⟨old, hread, hnew⟩ ..

theorem confined_pull (p : Pull) (custom : Custom) :
    (pull files p custom).Confined files p.source [] fun new =>
      ∃ old, files.read p.source = .ok old ∧
        new = (Patch.pull? old p.marker p.path p.name custom.body).getD old := by
  unfold pull
  split
  next => exact .fail _
  next old hread =>
    split
    next new hnew => exact .put hread ⟨old, hread, by rw [hnew]; rfl⟩ ..
    next hnone =>
      split
      next => exact .idle hread ⟨old, hread, by rw [hnone]; rfl⟩ ..
      next => exact .fail _

theorem files_pull_of_unchanged {p : Pull} {custom : Custom}
    (h : (pull files p custom).outcome = .ok .unchanged) : (pull files p custom).files = files := by
  unfold pull at h ⊢
  split
  next => rfl
  next old hread =>
    simp only [hread] at h
    split
    next new hnew =>
      simp only [hnew, put] at h
      split at h <;> cases h
    next => split <;> rfl

theorem writers_confined :
    (∀ out content, (w.writeOutput files out content).Confined files (w.target out)
      (directoriesFor (w.target out)) (· = content)) ∧
    (∀ inj content, (w.inject files inj content).Confined files (w.injectionTarget inj) []
      fun new => ∃ old, files.read (w.injectionTarget inj) = .ok old ∧
        Patch.inject? old inj.placeholder content = some new) ∧
    (∀ document imports, (importInto files document imports).Confined files document []
      fun new => ∃ old, files.read document = .ok old ∧
        Patch.spliceImports old imports = .ok new) ∧
    ∀ p custom, (pull files p custom).Confined files p.source []
        (fun new => ∃ old, files.read p.source = .ok old ∧
          new = (Patch.pull? old p.marker p.path p.name custom.body).getD old) ∧
      ((pull files p custom).outcome = .ok .unchanged → (pull files p custom).files = files) :=
  ⟨confined_writeOutput files w, confined_inject files w, confined_importInto files,
    fun p custom => ⟨confined_pull files p custom, files_pull_of_unchanged files⟩⟩

def cabinet : Files.Tree where
  medium := .memory
  entries := [("/", .directory), ("/p", .directory), ("/p/n", .file "1\n"),
    ("/p/d.md", .file "<!-- pull_from: e.md, block: c, processed: true -->\nx\n")]
  denied := { write := ["/p/n/s/a.js"] }

def cabinetWriter : Writer := ⟨⟨"/p"⟩, []⟩

def cabinetOutput : Output := ⟨⟨"/p/d.md", [], 1, 2⟩, "n/s/a.js", []⟩

def cabinetPull : Pull := ⟨⟨"/p/d.md", [], 1, 1⟩, "e.md", "c", "<!--pull_from:e.md,block:c-->"⟩

def cabinetCustom : Custom := ⟨⟨"/p/e.md", "x\n", 1, 3⟩, "c"⟩

theorem writers_confined_cabinet :
    (cabinetWriter.writeOutput cabinet cabinetOutput "y").outcome =
        .error (.write "/p/n/s/a.js" ⟨.opening, "/p/n/s/a.js", .denied⟩) ∧
      (cabinetWriter.writeOutput cabinet cabinetOutput "y").files.get? "/p/n" = some ⟨"1\n", true⟩ ∧
      SameTexts [] (directoriesFor "/p/n/s/a.js") cabinet
        (cabinetWriter.writeOutput cabinet cabinetOutput "y").files ∧
      (pull cabinet cabinetPull cabinetCustom).outcome = .ok .unchanged ∧
      (pull cabinet cabinetPull cabinetCustom).files = cabinet := by
  have hdenied : (cabinetWriter.writeOutput cabinet cabinetOutput "y").outcome =
      .error (.write "/p/n/s/a.js" ⟨.opening, "/p/n/s/a.js", .denied⟩) := by
    decide +kernel
  have hunchanged : (pull cabinet cabinetPull cabinetCustom).outcome = .ok .unchanged := by
    decide +kernel
  have htarget : cabinetWriter.target cabinetOutput = "/p/n/s/a.js" := by decide +kernel
  obtain ⟨houtput, -, -, hpull⟩ := writers_confined cabinet cabinetWriter
  have hsame := (houtput cabinetOutput "y").failed _ hdenied
  rw [htarget] at hsame
  exact ⟨hdenied, by decide +kernel, hsame, hunchanged,
    (hpull cabinetPull cabinetCustom).2 hunchanged⟩

/-- In memory an output may turn a file that is not its own into a directory. -/
theorem writeOutput_blocked :
    let step := cabinetWriter.writeOutput Run.blocked Run.blockedOutput "y"
    step.outcome = .ok .created ∧ cabinetWriter.target Run.blockedOutput = "/p/k/x.js" ∧
      Run.blocked.get? "/p/k" = some (.file "k") ∧ step.files.get? "/p/k" = some ⟨"k", true⟩ ∧
      step.files.files = [(ofString "/p/k/x.js", ofString "y")] := by
  decide +kernel

end Writer

end Tangle
