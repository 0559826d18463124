import Tangle.Proofs.Run.Balance

namespace Tangle

open Text Files Files.Tree

theorem Options.override_dryRun (env : Environment) (o : Options) (ov : Overrides) (b : Bool)
    (v : Option Bool) : { o with dryRun := b }.override env { ov with dryRun := v } =
      { o.override env ov with dryRun := v.getD b } :=
  rfl

theorem Extract.fetch_congr {files files' : Files.Tree} {base : Base} {ref : Ref}
    (h : files'.read (base.resolve ref.path) = files.read (base.resolve ref.path)) :
    fetch files' base ref = fetch files base ref := by
  simp only [fetch, h]

namespace Run

section Leave

variable {env : Environment} {options : Options} {overrides : Overrides} {files : Files.Tree}

theorem files_run_of_error {o : Obstacle}
    (h : (run env options overrides files).outcome = .error o) :
    (run env options overrides files).files = files := by
  cases hdocuments : documentsIn env options overrides files with
  | error f => rw [run_of_scan_error hdocuments]
  | ok documents =>
    rw [run_eq_runOn hdocuments, runOn] at h ⊢
    dsimp only at h ⊢
    cases hselected : (planOf env options overrides (blocksOf files documents)).selected with
    | error b => rfl
    | ok outputs =>
      rw [hselected] at h
      cases h

theorem files_run_of_dryRun {documents : List Document}
    (hfound : documentsIn env options overrides files = .ok documents)
    (h : (planOf env options overrides (blocksOf files documents)).options.dryRun = true) :
    (run env options overrides files).files = files := by
  cases hselected : (planOf env options overrides (blocksOf files documents)).selected with
  | error b =>
    rw [run_eq_runOn hfound, runOn]
    dsimp only
    rw [hselected]
  | ok outputs =>
    obtain ⟨log, hrun⟩ := run_eq_write hfound hselected
    rw [hrun, files_write_of_dryRun h]

/-- A run that ends with an error and a dry run leave all files as they are, and a run that is told
to be dry is dry whatever its documents say. -/
theorem files_run_of_no_leave (env : Environment) (options : Options) (overrides : Overrides)
    (files : Files.Tree) :
    (∀ o, (run env options overrides files).outcome = .error o →
      (run env options overrides files).files = files) ∧
    (∀ documents, documentsIn env options overrides files = .ok documents →
      (planOf env options overrides (blocksOf files documents)).options.dryRun = true →
      (run env options overrides files).files = files) ∧
    ∀ s dry, overrides.dryRun = some dry →
      (planOf env options overrides s).options.dryRun = dry := by
  refine ⟨fun o h => files_run_of_error h, fun documents => files_run_of_dryRun, ?_⟩
  intro s dry h
  rw [dryRun_planOf, Options.override, h]
  rfl

def insistent : Files.Tree where
  medium := .memory
  entries := [("/", .directory), ("/proj", .directory),
    ("/proj/d.md", .file ("```c lit-type:config lit-name:general\ndry_run=false\n```\n" ++
      "```c lit-type:output lit-file:x\n```\n"))]

theorem files_run_of_no_leave_insistent :
    (∃ o, (run atRoot project { documentPattern := some "(" } insistent).outcome = .error o) ∧
      (run atRoot project { documentPattern := some "(" } insistent).files = insistent ∧
      (run atRoot project { dryRun := some true } insistent).files = insistent ∧
      (run atRoot project {} insistent).files ≠ insistent := by
  have hfound : documentsIn atRoot project {} insistent = .ok [⟨"/proj/d.md", []⟩] := by
    rw [documentsIn, Scan.scan_eq_insertionSort]
    decide +kernel
  have hwrites : (runOn atRoot project {} insistent [⟨"/proj/d.md", []⟩]).files ≠ insistent := by
    decide +kernel
  have hpattern : ∃ o, (runOn atRoot project { documentPattern := some "(" } insistent
      [⟨"/proj/d.md", []⟩]).outcome = .error o := by
    have hbad : (runOn atRoot project { documentPattern := some "(" } insistent
        [⟨"/proj/d.md", []⟩]).outcome.isOk = false := by
      decide +kernel
    revert hbad
    cases (runOn atRoot project { documentPattern := some "(" } insistent
      [⟨"/proj/d.md", []⟩]).outcome with
    | error o => exact fun _ => ⟨o, rfl⟩
    | ok account => exact fun h => by cases h
  obtain ⟨hstopped, -, -⟩ := files_run_of_no_leave atRoot project { documentPattern := some "(" }
    insistent
  obtain ⟨-, hdry, htold⟩ := files_run_of_no_leave atRoot project { dryRun := some true } insistent
  have hfound' : documentsIn atRoot project { documentPattern := some "(" } insistent =
      .ok [⟨"/proj/d.md", []⟩] := hfound
  rw [← run_eq_runOn hfound] at hwrites
  rw [← run_eq_runOn hfound'] at hpattern
  obtain ⟨o, ho⟩ := hpattern
  exact ⟨⟨o, ho⟩, hstopped o ho, hdry _ hfound (htold _ true rfl), hwrites⟩

end Leave

section Foretells

variable {α β : Type} {S : α → α → Prop} {os os' : List (Outcome α)}

/-- What a dry run says of a thing, and what becomes of it: a failure is certain, but what is
planned may come to nothing. -/
inductive Foretells (S : α → α → Prop) : Outcome α → Outcome α → Prop
  | failed (f : Failure) : Foretells S (.error f) (.error f)
  | spoiled (a : α) (f : Failure) : Foretells S (.ok a) (.error f)
  | done {a a' : α} (h : S a a') : Foretells S (.ok a) (.ok a')

theorem failures_of_foretells (h : List.Forall₂ (Foretells S) os' os) :
    (failures os').Sublist (failures os) := by
  induction h with
  | nil => exact .slnil
  | cons ho _ ih =>
    cases ho with
    | failed f => exact ih.cons_cons f
    | spoiled a f => exact ih.cons f
    | done h => exact ih

theorem successes_of_foretells (view : α → Option β)
    (hview : ∀ a a', S a a' → view a' = view a ∨ view a' = none)
    (h : List.Forall₂ (Foretells S) os' os) :
    ((successes os).filterMap view).Sublist ((successes os').filterMap view) := by
  simp only [List.filterMap_eq_flatMap_toList]
  induction h with
  | nil => exact .slnil
  | cons ho _ ih =>
    cases ho with
    | failed f => exact ih
    | spoiled a f => exact ih.trans (List.sublist_append_right ..)
    | @done a a' h =>
      rw [successes_ok, successes_ok, List.flatMap_cons, List.flatMap_cons]
      rcases hview a a' h with heq | hnone
      · rw [heq]
        exact ih.append_left _
      · rw [hnone]
        exact ih.trans (List.sublist_append_right ..)

theorem successes_of_foretells_eq (h : List.Forall₂ (Foretells Eq) os' os) :
    (successes os).Sublist (successes os') := by
  simpa using successes_of_foretells some (fun a a' h => .inl (by rw [h])) h

end Foretells

section Becomes

def Becomes (t t' : Files.Tree) : Prop := ∃ written, Later written t t'

variable {t t' t'' : Files.Tree}

theorem Becomes.refl (t : Files.Tree) : Becomes t t := ⟨[], .refl ..⟩

theorem Becomes.trans (h : Becomes t t') (h' : Becomes t' t'') : Becomes t t'' := by
  obtain ⟨written, dirs, h⟩ := h
  obtain ⟨written', dirs', h'⟩ := h'
  exact ⟨_, _, h.trans h'⟩

theorem Becomes.get?_eq_none {q : Text} (h : Becomes t t') (hq : t'.get? q = none) :
    t.get? q = none := by
  obtain ⟨written, dirs, h⟩ := h
  cases hget : t.get? q with
  | none => rfl
  | some e => simpa [hq] using h.present (q := q) (by rw [hget]; rfl)

theorem becomes_put {α : Type} (files : Files.Tree) (path content : Text) (result : α)
    (entry : Log.Entry) : Becomes files (Writer.put files path content result entry).files := by
  unfold Writer.put
  split
  next => exact .refl _
  next files' hwrite => exact ⟨_, _, (grows_write hwrite).1⟩

end Becomes

variable {p : Plan}

section Tasks

variable {α : Type} {t : Task α}

def Task.Confined (t : Task α) : Prop := ∀ files content,
  (∃ f, (t.write files content).outcome = .error f ∧
    Later [] files (t.write files content).files) ∨
  ∃ a, (t.write files content).outcome = .ok a ∧
    Later [t.path] files (t.write files content).files

theorem confined_outputTask (out : Output) : (outputTask p out).Confined := by
  intro files content
  rcases p.writer.writeOutput_cases files out content with ⟨f, hf, hgrows⟩ | ⟨a, ha, hgrows, -⟩
  · exact .inl ⟨f, hf, _, hgrows⟩
  · exact .inr ⟨a, ha, _, hgrows⟩

theorem confined_injectionTask (inj : Injection) : (injectionTask p inj).Confined := by
  intro files content
  dsimp only [injectionTask, Writer.inject]
  split
  next =>
    split
    next => exact .inl ⟨_, rfl, .refl ..⟩
    next => exact .inl ⟨_, rfl, .refl ..⟩
  next =>
    split
    next => exact .inl ⟨_, rfl, .refl ..⟩
    next =>
      unfold Writer.put
      split
      next => exact .inl ⟨_, rfl, .refl ..⟩
      next hwrite => exact .inr ⟨_, rfl, _, (grows_write hwrite).1⟩

theorem later_carryOut (ht : t.Confined) (hdry : p.options.dryRun = false) (g : Progress p.store) :
    Later (successes [(carryOut p t g).1]) g.files (carryOut p t g).2.files := by
  obtain ⟨-, ⟨f, -, h, hfiles⟩ | ⟨content, -, ⟨hwet, -⟩ | ⟨-, hfiles, houtcome⟩⟩⟩ :=
    carryOut_cases t g
  · rw [hfiles]
    exact .refl ..
  · simp [hdry] at hwet
  · rw [hfiles]
    rcases houtcome with ⟨a, ha, h⟩ | ⟨f, hf, h⟩
    · rw [h]
      rcases ht g.files content with ⟨f, hf, -⟩ | ⟨-, -, hlater⟩
      · cases ha.symm.trans hf
      · exact hlater
    · rw [h]
      rcases ht g.files content with ⟨-, -, hlater⟩ | ⟨a, ha, -⟩
      · exact hlater
      · cases ha.symm.trans hf

end Tasks

abbrev Plan.rehearsal (p : Plan) : Plan := { p with options := { p.options with dryRun := true } }

def Plan.fetched (p : Plan) : List Text :=
  p.store.references.map (fun r => p.base.resolve r.ref.path) ++
    p.store.imports.map fun i => p.base.resolve i.ref.path

def Plan.consulted (p : Plan) : List Text := p.fetched ++ p.store.pulls.map (·.document)

/-- A run from `files` to `final` whose outputs and injections are the files `written` writes and
makes nothing that it consults. Imports and pulls make nothing, since they edit documents that are
there. -/
structure Apart (p : Plan) (files final : Files.Tree) (written : List Text) : Prop where
  rooted : files.medium = .disk → files.Rooted
  spared : ∀ q ∈ p.consulted, Spared written q
  absent : ∀ q ∈ p.consulted, files.get? q = none → final.get? q = none

def ApartAbove (p : Plan) (files : Files.Tree) (written : List Text) : Prop :=
  files.medium = .disk → ∀ q ∈ p.fetched, ∀ dir ∈ ancestors q, files.get? dir = none →
    Spared written dir

section Lockstep

variable {files final t : Files.Tree} {written : List Text}

theorem Apart.read_eq (h : Apart p files final written) (habove : ApartAbove p files written)
    (hlater : Later written files t) (hbecomes : Becomes t final) {q : Text} (hq : q ∈ p.fetched) :
    t.read q = files.read q := by
  have hmem : q ∈ p.consulted := List.mem_append_left _ hq
  obtain ⟨dirs, hgrows⟩ := hlater
  exact hgrows.read_eq (h.spared q hmem)
    (fun hnone => hbecomes.get?_eq_none (h.absent q hmem hnone)) fun hmedium => habove hmedium q hq

theorem Apart.exists?_eq (h : Apart p files final written) (hfrom : Becomes files t)
    (hbecomes : Becomes t final) {q : Pull} (hq : q ∈ p.store.pulls) :
    t.exists? q.document = files.exists? q.document := by
  have hmem : q.document ∈ p.consulted := List.mem_append_right _ (List.mem_map_of_mem hq)
  obtain ⟨written', dirs, hgrows⟩ := hfrom
  exact hgrows.exists?_eq h.rooted fun hnone => hbecomes.get?_eq_none (h.absent _ hmem hnone)

theorem expand_rehearsal {d g : Progress p.store} (hmemo : d.memo = g.memo)
    (hread : ∀ r ∈ p.store.references,
      d.files.read (p.base.resolve r.ref.path) = g.files.read (p.base.resolve r.ref.path))
    (text : Text) :
    (expand p.rehearsal d text).1 = (expand p g text).1 ∧
      (expand p.rehearsal d text).2.memo = (expand p g text).2.memo := by
  have hresolve : (p.rehearsal.context d.files).resolve d.memo text =
      (p.context g.files).resolve g.memo text := by
    have hfetch : ∀ r, .reference r ∈ p.store.blocks →
        Extract.fetch d.files p.base r.ref = (p.context g.files).fetch r.ref :=
      fun r hr => Extract.fetch_congr (hread r (Store.mem_references.2 hr))
    rw [hmemo]
    exact @Expansion.Context.resolve_rehearsal (p.context g.files) true _ hfetch g.memo text
  unfold expand
  rw [hresolve]
  exact ⟨rfl, rfl⟩

theorem foretells_carryOut {α : Type} (t : Task α) (hdry : p.options.dryRun = false)
    {d g : Progress p.store} (hmemo : d.memo = g.memo)
    (hread : ∀ r ∈ p.store.references,
      d.files.read (p.base.resolve r.ref.path) = g.files.read (p.base.resolve r.ref.path)) :
    Foretells Eq (carryOut p.rehearsal t d).1 (carryOut p t g).1 ∧
      (carryOut p.rehearsal t d).2.memo = (carryOut p t g).2.memo := by
  obtain ⟨hexpand, hmemos⟩ := expand_rehearsal hmemo hread t.body
  obtain ⟨hmemo', hcases⟩ := carryOut_cases t g
  obtain ⟨hmemoDry, hcasesDry⟩ := @carryOut_cases p.rehearsal _ t d
  refine ⟨?_, hmemoDry.trans (hmemos.trans hmemo'.symm)⟩
  rcases hcasesDry with ⟨f, hf, hplanned, -⟩ | ⟨content, hcontent, ⟨-, hplanned, -⟩ | ⟨hwet, -⟩⟩
  · rw [hexpand] at hf
    rcases hcases with ⟨f', hf', hdone, -⟩ | ⟨content, hcontent, -⟩
    · rw [hplanned, hdone, Except.error.inj (hf.symm.trans hf')]
      exact .failed _
    · cases hf.symm.trans hcontent
  · rw [hplanned]
    rcases hcases with ⟨f', hf', -⟩ | ⟨-, -, ⟨hdry', -⟩ | ⟨-, -, ⟨a, -, h⟩ | ⟨f, -, h⟩⟩⟩
    · cases hf'.symm.trans (hexpand.symm.trans hcontent)
    · simp [hdry] at hdry'
    · rw [h]
      exact .done rfl
    · rw [h]
      exact .spoiled ..
  · cases hwet

/-- The dry run `d` beside the other run `g`, which is to write nothing but `written` and to end up
with `final` once it has done what is left to do, and the phases after that. -/
structure Alongside {α : Type} (act : Progress p.store → α → Outcome Text × Progress p.store)
    (files final : Files.Tree) (written : List Text) (todo : List α) (d g : Progress p.store) :
    Prop where
  memo_eq : d.memo = g.memo
  files_eq : d.files = files
  later : Later written files g.files
  writes : successes (each act g todo).1 ⊆ written
  becomes : Becomes (each act g todo).2.files final

variable {α β : Type} {task : α → Task β}

theorem becomes_each {γ : Type} {act : Progress p.store → α → γ × Progress p.store}
    (h : ∀ g a, Becomes g.files (act g a).2.files) (g : Progress p.store) (as : List α) :
    Becomes g.files (each act g as).2.files :=
  each_preserves (I := fun g' : Progress p.store => Becomes g.files g'.files)
    (fun g' a hg' => hg'.trans (h g' a)) (.refl _) as

theorem becomes_carryOut {t : Task β} (ht : t.Confined) (hdry : p.options.dryRun = false)
    (g : Progress p.store) : Becomes g.files (carryOut p t g).2.files :=
  ⟨_, later_carryOut ht hdry g⟩

theorem Alongside.step (htask : ∀ a, (task a).Confined) (hdry : p.options.dryRun = false)
    (hread : ∀ t, Later written files t → Becomes t final →
      ∀ q ∈ p.fetched, t.read q = files.read q)
    {a : α} {as : List α} {d g : Progress p.store}
    (h : Alongside (fun g a => carryOut p (task a) g) files final written (a :: as) d g) :
    Foretells Eq (carryOut p.rehearsal (task a) d).1 (carryOut p (task a) g).1 ∧
      Alongside (fun g a => carryOut p (task a) g) files final written as
        (carryOut p.rehearsal (task a) d).2 (carryOut p (task a) g).2 := by
  have hbecomes : Becomes g.files final :=
    (becomes_each (fun g a => becomes_carryOut (htask a) hdry g) g (a :: as)).trans h.becomes
  have hsame : ∀ r ∈ p.store.references,
      d.files.read (p.base.resolve r.ref.path) = g.files.read (p.base.resolve r.ref.path) := by
    intro r hr
    rw [h.files_eq]
    exact (hread g.files h.later hbecomes _
      (List.mem_append_left _ (List.mem_map_of_mem hr))).symm
  obtain ⟨hforetells, hmemo⟩ := foretells_carryOut (task a) hdry h.memo_eq hsame
  have hwrites : successes ([(carryOut p (task a) g).1] ++
      (each (fun g a => carryOut p (task a) g) (carryOut p (task a) g).2 as).1) ⊆ written :=
    h.writes
  rw [successes_append, List.append_subset] at hwrites
  have hlater := later_carryOut (htask a) hdry g
  refine ⟨hforetells, hmemo, ?_, ?_, hwrites.2, h.becomes⟩
  · exact (@files_carryOut_of_dryRun p.rehearsal _ (task a) d rfl).trans h.files_eq
  · obtain ⟨dirs, hgrows⟩ := hlater
    exact h.later.trans (.of_grows hgrows hwrites.1)

theorem Alongside.phase (htask : ∀ a, (task a).Confined) (hdry : p.options.dryRun = false)
    (hread : ∀ t, Later written files t → Becomes t final →
      ∀ q ∈ p.fetched, t.read q = files.read q)
    {as : List α} {d g : Progress p.store}
    (h : Alongside (fun g a => carryOut p (task a) g) files final written as d g) :
    List.Forall₂ (Foretells Eq)
      (each (fun d a => carryOut p.rehearsal (task a) d) (d : Progress p.rehearsal.store) as).1
      (each (fun g a => carryOut p (task a) g) g as).1 ∧
    Alongside (fun g a => carryOut p (task a) g) files final written []
      (each (fun d a => carryOut p.rehearsal (task a) d) (d : Progress p.rehearsal.store) as).2
      (each (fun g a => carryOut p (task a) g) g as).2 :=
  each_abreast (fun _ _ _ _ h => h.step htask hdry hread) h

end Lockstep

section Documents

variable (g : Progress p.store)

theorem readImport_rehearsal {d g : Progress p.store} {i : Import}
    (h : d.files.read (p.base.resolve i.ref.path) = g.files.read (p.base.resolve i.ref.path)) :
    (readImport p.rehearsal d i).1 = (readImport p g i).1 := by
  have hfetch : Extract.fetch d.files p.rehearsal.base i.ref = Extract.fetch g.files p.base i.ref :=
    Extract.fetch_congr h
  unfold readImport
  rw [hfetch]
  cases Extract.fetch g.files p.base i.ref with
  | ok content => rfl
  | error f => cases f <;> rfl

theorem becomes_perform {α β : Type} {step : Writer.Step α} {result : α → β} {planned : β}
    {message : Text} {fields : List (Text × Log.Value)} (h : Becomes g.files step.files) :
    Becomes g.files (perform p g step result planned message fields).2.files := by
  cases hdry : p.options.dryRun with
  | true =>
    rw [perform_of_dryRun hdry]
    exact .refl _
  | false =>
    rw [(perform_cases hdry).1]
    exact h

theorem becomes_writeImports (group : Text × List (Import × Text)) :
    Becomes g.files (writeImports p g group).2.files := by
  refine becomes_perform g ?_
  unfold Writer.importInto
  split
  next => exact .refl _
  next =>
    split
    next => exact .refl _
    next => exact becomes_put ..

theorem becomes_writePull (q : Pull) : Becomes g.files (writePull p g q).2.files := by
  rw [writePull_eq]
  cases p.store.customFor? q with
  | none => exact .refl _
  | some c =>
    refine becomes_perform g ?_
    unfold Writer.pull
    split
    next => exact .refl _
    next =>
      split
      next => exact becomes_put ..
      next => split <;> exact .refl _

theorem becomes_documents :
    let reading := each (readImport p) g p.store.imports
    let importing := each (writeImports p) reading.2 (byDocument (successes reading.1))
    let pulling := each (writePull p) importing.2 p.store.pulls
    Becomes g.files importing.2.files ∧ Becomes g.files pulling.2.files := by
  intro reading importing pulling
  have himporting : Becomes g.files importing.2.files := by
    rw [← (each_readImport g p.store.imports).1]
    exact becomes_each becomes_writeImports ..
  exact ⟨himporting, himporting.trans (becomes_each becomes_writePull ..)⟩

variable (hdry : p.options.dryRun = false)

include hdry

theorem foretells_writeImports (d : Progress p.store) (group : Text × List (Import × Text)) :
    Foretells Eq (writeImports p.rehearsal d group).1 (writeImports p g group).1 := by
  rw [@writeImports_of_dryRun p.rehearsal d rfl]
  rcases writeImports_cases g hdry group with h | ⟨f, -, h⟩
  · rw [h]
    exact .done rfl
  · rw [h]
    exact .spoiled ..

theorem foretells_writePull {d : Progress p.store} {q : Pull}
    (h : d.files.exists? q.document = g.files.exists? q.document) :
    Foretells (fun a a' => a' = a ∨ a' = none) (writePull p.rehearsal d q).1
      (writePull p g q).1 := by
  rw [@writePull_eq p.rehearsal d q, writePull_eq g q]
  cases p.store.customFor? q with
  | none =>
    dsimp only [Progress.failed]
    rw [h]
    exact .failed _
  | some c =>
    dsimp only
    rw [@perform_of_dryRun p.rehearsal _ _ _ _ _ _ _ _ rfl]
    obtain ⟨-, -, ⟨a, -, h⟩ | ⟨f, -, h⟩⟩ := @perform_cases p _ _ g (Writer.pull g.files q c)
      (fun action => if action = .patched then some q.source else none) (some q.source)
      "Could not pull block" [("into", .text q.source)] hdry
    · rw [h]
      exact .done (by split_ifs <;> simp)
    · rw [h]
      exact .spoiled ..

omit hdry in
theorem fst_each_readImport_rehearsal {d g : Progress p.store} {is : List Import}
    (h : ∀ i ∈ is, d.files.read (p.base.resolve i.ref.path) =
      g.files.read (p.base.resolve i.ref.path)) :
    (each (readImport p.rehearsal) (d : Progress p.rehearsal.store) is).1 =
      (each (readImport p) g is).1 := by
  induction is generalizing d g with
  | nil => rfl
  | cons i is ih =>
    rw [List.forall_mem_cons] at h
    have hfirst := readImport_rehearsal h.1
    have hrest := @ih (readImport p.rehearsal d i).2 (readImport p g i).2 fun j hj => by
      rw [@files_readImport p.rehearsal d i, files_readImport g i]
      exact h.2 j hj
    exact congrArg₂ List.cons hfirst hrest

theorem foretells_each_writeImports (d : Progress p.store)
    (groups : List (Text × List (Import × Text))) :
    List.Forall₂ (Foretells Eq)
      (each (writeImports p.rehearsal) (d : Progress p.rehearsal.store) groups).1
      (each (writeImports p) g groups).1 := by
  refine (each_abreast (R := fun _ _ _ => True) (fun group _ d g _ => ?_) trivial).1
  exact ⟨foretells_writeImports g hdry d group, trivial⟩

theorem foretells_each_writePull {files final : Files.Tree} {qs : List Pull} {d : Progress p.store}
    (hseen : ∀ t, Becomes files t → Becomes t final → ∀ q ∈ qs,
      t.exists? q.document = files.exists? q.document)
    (hfiles : d.files = files) (hfrom : Becomes files g.files)
    (hbecomes : Becomes (each (writePull p) g qs).2.files final) :
    List.Forall₂ (Foretells fun a a' => a' = a ∨ a' = none)
      (each (writePull p.rehearsal) (d : Progress p.rehearsal.store) qs).1
      (each (writePull p) g qs).1 := by
  induction qs generalizing d g with
  | nil => exact .nil
  | cons q qs ih =>
    have hto := (becomes_each becomes_writePull g (q :: qs)).trans hbecomes
    refine .cons (foretells_writePull g hdry ?_) (ih (writePull p g q).2 ?_ ?_ ?_ hbecomes)
    · rw [hfiles, hseen g.files hfrom hto q (List.mem_cons_self ..)]
    · exact fun t ht ht' r hr => hseen t ht ht' r (List.mem_cons_of_mem _ hr)
    · exact (@files_writePull_of_dryRun p.rehearsal d rfl q).trans hfiles
    · exact hfrom.trans (becomes_writePull g q)

theorem foretells_documents {files final : Files.Tree} {d : Progress p.store}
    (hfiles : d.files = files) (hfrom : Becomes files g.files)
    (hread : ∀ i ∈ p.store.imports,
      g.files.read (p.base.resolve i.ref.path) = files.read (p.base.resolve i.ref.path))
    (hseen : ∀ t, Becomes files t → Becomes t final → ∀ q ∈ p.store.pulls,
      t.exists? q.document = files.exists? q.document) :
    let reading := each (readImport p) g p.store.imports
    let importing := each (writeImports p) reading.2 (byDocument (successes reading.1))
    let pulling := each (writePull p) importing.2 p.store.pulls
    let reading' := each (readImport p.rehearsal) (d : Progress p.rehearsal.store) p.store.imports
    let importing' := each (writeImports p.rehearsal) reading'.2 (byDocument (successes reading'.1))
    let pulling' := each (writePull p.rehearsal) importing'.2 p.store.pulls
    pulling.2.files = final → reading'.1 = reading.1 ∧
      List.Forall₂ (Foretells Eq) importing'.1 importing.1 ∧
      List.Forall₂ (Foretells fun a a' => a' = a ∨ a' = none) pulling'.1 pulling.1 := by
  intro reading importing pulling reading' importing' pulling' hfinal
  have hreading : reading'.1 = reading.1 :=
    fst_each_readImport_rehearsal fun i hi => by rw [hfiles, hread i hi]
  have himporting : List.Forall₂ (Foretells Eq) importing'.1 importing.1 := by
    dsimp only [importing']
    rw [hreading]
    exact foretells_each_writeImports _ hdry _ _
  refine ⟨hreading, himporting, foretells_each_writePull importing.2 hdry hseen ?_ ?_ ?_⟩
  · exact (files_each (@files_writeImports_of_dryRun p.rehearsal rfl) ..).trans
      ((files_each (@files_readImport p.rehearsal) ..).trans hfiles)
  · exact hfrom.trans (becomes_documents g).1
  · rw [hfinal]
    exact .refl _

end Documents

structure Foreseen (planned actual : Account) : Prop where
  documents : planned.report.documents = actual.report.documents
  filtered : planned.report.filtered = actual.report.filtered
  diagnostics : planned.report.diagnostics = actual.report.diagnostics
  written : actual.report.written.Sublist planned.report.written
  injected : actual.report.injected.Sublist planned.report.injected
  imported : actual.report.imported.Sublist planned.report.imported
  pulled : actual.report.pulled.Sublist planned.report.pulled
  failures : planned.failures.Sublist actual.failures

theorem foreseen_write (hdry : p.options.dryRun = false) {documents : List (Outcome Lexed)}
    {faults : List Config.Fault} {outputs : List Output} {files : Files.Tree}
    {log : List Log.Entry} {actual : Account}
    (hactual : (write p documents faults outputs files log).outcome = .ok actual)
    (hapart : Apart p files (write p documents faults outputs files log).files
      (actual.report.written ++ actual.report.injected))
    (habove : ApartAbove p files (actual.report.written ++ actual.report.injected))
    (log' : List Log.Entry) :
    ∃ planned, (write p.rehearsal documents faults outputs files log').outcome = .ok planned ∧
      Foreseen planned actual := by
  obtain rfl := Except.ok.inj hactual
  let final := (write p documents faults outputs files log).files
  let start : Progress p.store := ⟨files, [], log⟩
  let writing := each (writeOutput p) start outputs
  let injecting := each (writeInjection p) writing.2 p.store.injections
  let written := successes writing.1 ++ successes injecting.1
  have hapart : Apart p files final written := hapart
  have hsame : ∀ t, Later written files t → Becomes t final → ∀ q ∈ p.fetched,
      t.read q = files.read q :=
    fun t hlater hbecomes q hq => hapart.read_eq habove hlater hbecomes hq
  have hinjected : Becomes injecting.2.files final := (becomes_documents injecting.2).2
  have hwritten : Becomes writing.2.files final :=
    (becomes_each (fun g inj => becomes_carryOut (confined_injectionTask inj) hdry g) ..).trans
      hinjected
  have hstart : Alongside (fun g out => carryOut p (outputTask p out) g) files final written outputs
      ⟨files, [], log'⟩ start :=
    ⟨rfl, rfl, .refl .., List.subset_append_left .., hwritten⟩
  obtain ⟨houtputs, hmiddle⟩ := hstart.phase confined_outputTask hdry hsame
  have hmiddle : Alongside (fun g inj => carryOut p (injectionTask p inj) g) files final written
      p.store.injections _ writing.2 :=
    ⟨hmiddle.memo_eq, hmiddle.files_eq, hmiddle.later, List.subset_append_right .., hinjected⟩
  obtain ⟨hinjections, hend⟩ := hmiddle.phase confined_injectionTask hdry hsame
  obtain ⟨hreading, himporting, hpulling⟩ := foretells_documents injecting.2 hdry hend.files_eq
    ⟨written, hend.later⟩
    (fun i hi => hsame injecting.2.files hend.later hinjected _
      (List.mem_append_right _ (List.mem_map_of_mem hi)))
    (fun t hfrom hto q hq => hapart.exists?_eq hfrom hto hq) rfl
  refine ⟨_, rfl, rfl, rfl, rfl, ?written, ?injected, ?imported, ?pulled, ?failures⟩
  case written => exact successes_of_foretells_eq houtputs
  case injected => exact successes_of_foretells_eq hinjections
  case imported => exact successes_of_foretells_eq himporting
  case pulled => exact successes_of_foretells id (fun _ _ h => h) hpulling
  case failures =>
    refine List.Sublist.append ?_ (failures_of_foretells hpulling)
    refine List.Sublist.append ?_ (failures_of_foretells himporting)
    refine List.Sublist.append ?_ (congrArg failures hreading ▸ List.Sublist.refl _)
    refine List.Sublist.append ?_ (failures_of_foretells hinjections)
    exact List.Sublist.append (.refl _) (failures_of_foretells houtputs)

structure Rehearses (env : Environment) (options options' : Options)
    (overrides overrides' : Overrides) : Prop where
  options_eq : options' = { options with dryRun := options'.dryRun }
  overrides_eq : overrides' = { overrides with dryRun := overrides'.dryRun }
  real : (options.override env overrides).dryRun = false
  dry : (options'.override env overrides').dryRun = true

namespace Rehearses

variable {env : Environment} {options options' : Options} {overrides overrides' : Overrides}
  (h : Rehearses env options options' overrides overrides')

include h

theorem override_eq : options'.override env overrides' =
    { options.override env overrides with dryRun := true } := by
  obtain ⟨b, rfl⟩ : ∃ b, options' = { options with dryRun := b } := ⟨_, h.options_eq⟩
  obtain ⟨v, rfl⟩ : ∃ v, overrides' = { overrides with dryRun := v } := ⟨_, h.overrides_eq⟩
  have hdry : v.getD b = true := h.dry
  rw [Options.override_dryRun, hdry]

theorem documentsIn_eq (files : Files.Tree) :
    documentsIn env options' overrides' files = documentsIn env options overrides files := by
  unfold documentsIn rootOf
  rw [h.override_eq]

theorem faultsOf_eq (s : Store) :
    faultsOf env options' overrides' s = faultsOf env options overrides s := by
  unfold faultsOf
  rw [h.override_eq, Config.resolve_dryRun]

theorem planOf_eq (s : Store) :
    planOf env options' overrides' s = (planOf env options overrides s).rehearsal := by
  have hdry : overrides'.dryRun.getD options'.dryRun = true := h.dry
  obtain ⟨v, rfl⟩ : ∃ v, overrides' = { overrides with dryRun := v } := ⟨_, h.overrides_eq⟩
  have hstill : v.getD true = true := by
    cases v with
    | none => rfl
    | some b => exact hdry
  unfold planOf rootOf
  rw [h.override_eq, Config.resolve_dryRun, Options.override_dryRun, hstill]

end Rehearses

/-- The dry run plans all that will be done and fails only where the other run fails, if that one
consults nothing that its outputs and injections write or make. -/
theorem run_foreseen {env : Environment} {options options' : Options}
    {overrides overrides' : Overrides} {files : Files.Tree} {documents : List Document}
    {actual : Account} (hrehearses : Rehearses env options options' overrides overrides')
    (hfound : documentsIn env options overrides files = .ok documents)
    (hactual : (run env options overrides files).outcome = .ok actual)
    (hapart : Apart (planOf env options overrides (blocksOf files documents)) files
      (run env options overrides files).files (actual.report.written ++ actual.report.injected))
    (habove : ApartAbove (planOf env options overrides (blocksOf files documents)) files
      (actual.report.written ++ actual.report.injected)) :
    ∃ planned, (run env options' overrides' files).outcome = .ok planned ∧
      Foreseen planned actual := by
  obtain ⟨outputs, hselected⟩ := exists_selected hfound hactual
  obtain ⟨log, hrun⟩ := run_eq_write hfound hselected
  rw [hrun] at hactual hapart
  have hfound' := (hrehearses.documentsIn_eq files).trans hfound
  have hplan := hrehearses.planOf_eq (blocksOf files documents)
  have hselected' : (planOf env options' overrides' (blocksOf files documents)).selected =
      .ok outputs := by
    rw [hplan]
    exact hselected
  obtain ⟨log', hrun'⟩ := run_eq_write hfound' hselected'
  rw [hrun', hplan, hrehearses.faultsOf_eq]
  exact foreseen_write ((dryRun_planOf _).trans hrehearses.real) hactual hapart habove log'

theorem run_foreseen_mishaps :
    ∃ actual, (run atRoot project {} mishaps).outcome = .ok actual ∧
      actual.report = mishapsReport ∧
      ∃ planned, (run atRoot project { dryRun := some true } mishaps).outcome = .ok planned ∧
        Foreseen planned actual := by
  obtain ⟨actual, houtcome, hreport⟩ := exists_account runOn_mishaps.1
  have hnone := runOn_mishaps.2
  rw [← run_eq_runOn documentsIn_mishaps] at houtcome hnone
  have hspared : ∀ q ∈ (planOf atRoot project {} (blocksOf mishaps mishapsDocuments)).consulted,
      Spared (mishapsReport.written ++ mishapsReport.injected) q ∧
        (mishaps.get? q = none → q = "/proj/no/file") ∧
        ∀ dir ∈ ancestors q, mishaps.get? dir = none →
          Spared (mishapsReport.written ++ mishapsReport.injected) dir := by
    decide +kernel
  refine ⟨actual, houtcome, hreport, run_foreseen ⟨rfl, rfl, rfl, rfl⟩ documentsIn_mishaps houtcome
    ⟨fun _ => by decide +kernel, ?_, ?_⟩ ?_⟩
  · rw [hreport]
    exact fun q hq => (hspared q hq).1
  · intro q hq hmissing
    rw [(hspared q hq).2.1 hmissing]
    exact hnone
  · rw [hreport]
    exact fun _ q hq => (hspared q (List.mem_append_left _ hq)).2.2

def shadowing : Files.Tree where
  medium := .disk
  entries := [("/", .directory), ("/proj", .directory),
    ("/proj/d.md", .file ("```js lit-type:output lit-file:a\none\n```\n" ++
      "```txt lit-type:reference lit-name:r lit-file:a/b.txt\n```\n" ++
      "```js lit-type:output lit-file:c.js\n\x7b\x7b\x7b r \x7d\x7d\x7d\n```\n"))]

/-- What a run says of a file that cannot be read need not be what the dry run said of it. -/
theorem apart_not_foreseen :
    ∃ documents actual planned,
      Rehearses atRoot project project {} { dryRun := some true } ∧
      documentsIn atRoot project {} shadowing = .ok documents ∧
      (blocksOf shadowing documents).ColonFree ∧
      (run atRoot project {} shadowing).outcome = .ok actual ∧
      Apart (planOf atRoot project {} (blocksOf shadowing documents)) shadowing
        (run atRoot project {} shadowing).files
        (actual.report.written ++ actual.report.injected) ∧
      (run atRoot project { dryRun := some true } shadowing).outcome = .ok planned ∧
      ¬ Foreseen planned actual := by
  have hfound : documentsIn atRoot project {} shadowing = .ok [⟨"/proj/d.md", []⟩] := by
    rw [documentsIn, Scan.scan_eq_insertionSort]
    decide +kernel
  have hrun : (runOn atRoot project {} shadowing [⟨"/proj/d.md", []⟩]).outcome.toOption.map
        (fun a => (a.report.written ++ a.report.injected, a.failures)) =
      some ([ofString "/proj/a"], [.output "c.js" (.reference "r" (.unreadable "a/b.txt"
        ⟨.opening, "/proj/a/b.txt", .notDirectory⟩))]) := by
    decide +kernel
  have hrun' : (runOn atRoot project { dryRun := some true } shadowing
      [⟨"/proj/d.md", []⟩]).outcome.toOption.map Account.failures =
      some [.output "c.js" (.reference "r" (.unreadable "a/b.txt"
        ⟨.opening, "/proj/a/b.txt", .noEntry⟩))] := by
    decide +kernel
  have hapart : ∀ q ∈
      (planOf atRoot project {} (blocksOf shadowing [⟨"/proj/d.md", []⟩])).consulted,
      Spared [ofString "/proj/a"] q ∧ (shadowing.get? q = none →
        (runOn atRoot project {} shadowing [⟨"/proj/d.md", []⟩]).files.get? q = none) := by
    decide +kernel
  obtain ⟨actual, houtcome, hactual⟩ := exists_account hrun
  obtain ⟨planned, houtcome', hplanned⟩ := exists_account hrun'
  have hfound' : documentsIn atRoot project { dryRun := some true } shadowing =
      .ok [⟨"/proj/d.md", []⟩] := hfound
  rw [← run_eq_runOn hfound] at houtcome hapart
  rw [← run_eq_runOn hfound'] at houtcome'
  simp only [Prod.mk.injEq] at hactual
  refine ⟨_, actual, planned, ⟨rfl, rfl, rfl, rfl⟩, hfound, colonFree_blocksOf (by decide +kernel),
    houtcome, ⟨fun _ => by decide +kernel, ?_, fun q hq => (hapart q hq).2⟩, houtcome', ?_⟩
  · rw [hactual.1]
    exact fun q hq => (hapart q hq).1
  · intro h
    have hfailures := h.failures
    rw [hplanned, hactual.2] at hfailures
    revert hfailures
    decide

end Run

end Tangle
