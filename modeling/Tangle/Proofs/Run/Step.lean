import Tangle.Proofs.Run.Plan

namespace Tangle.Run

open Text

section Each

variable {σ τ α β γ : Type} {act : σ → α → β × σ}

theorem forall₂_each {R : α → β → Prop} (h : ∀ s a, R a (act s a).1) (s : σ) (as : List α) :
    List.Forall₂ R as (each act s as).1 := by
  induction as generalizing s with
  | nil => exact .nil
  | cons a as ih => exact .cons (h s a) (ih (act s a).2)

theorem each_preserves {I : σ → Prop} (h : ∀ s a, I s → I (act s a).2) {s : σ} (hs : I s)
    (as : List α) : I (each act s as).2 := by
  induction as generalizing s with
  | nil => exact hs
  | cons a as ih => exact ih (h s a hs)

theorem files_each {store : Store} {act : Progress store → α → β × Progress store}
    (h : ∀ g a, (act g a).2.files = g.files) (g : Progress store) (as : List α) :
    (each act g as).2.files = g.files :=
  each_preserves (I := fun g' : Progress store => g'.files = g.files)
    (fun g' a hg' => (h g' a).trans hg') rfl as

/-- Two runs over the same things, in step. What relates them may speak of what is still to come. -/
theorem each_abreast {act' : τ → α → γ × τ} {Q : β → γ → Prop} {R : List α → σ → τ → Prop}
    (hstep : ∀ a as s s', R (a :: as) s s' →
      Q (act s a).1 (act' s' a).1 ∧ R as (act s a).2 (act' s' a).2)
    {as : List α} {s : σ} {s' : τ} (h : R as s s') :
    List.Forall₂ Q (each act s as).1 (each act' s' as).1 ∧
      R [] (each act s as).2 (each act' s' as).2 := by
  induction as generalizing s s' with
  | nil => exact ⟨.nil, h⟩
  | cons a as ih =>
    obtain ⟨hout, hnext⟩ := hstep a as s s' h
    obtain ⟨houts, hlast⟩ := ih hnext
    exact ⟨.cons hout houts, hlast⟩

end Each

section Outcomes

variable {α : Type} (os : List (Outcome α))

@[simp] theorem failures_ok (a : α) : failures (.ok a :: os) = failures os := rfl

@[simp] theorem failures_error (f : Failure) : failures (.error f :: os) = f :: failures os := rfl

variable {os} in
theorem mem_successes {a : α} : a ∈ successes os ↔ .ok a ∈ os := by
  simp only [successes, List.mem_filterMap]
  constructor
  · rintro ⟨_ | a', ho, h⟩
    · cases h
    · obtain rfl := Option.some.inj h
      exact ho
  · exact fun h => ⟨_, h, rfl⟩

end Outcomes

variable {p : Plan}

theorem Plan.sublist_of_selected {outputs : List Output} (h : p.selected = .ok outputs) :
    outputs.Sublist
      (Selection.apply p.base p.options.included p.options.ignored p.store.outputs) := by
  unfold selected Selection.narrow at h
  split at h
  next =>
    rw [← Except.ok.inj h]
    exact List.filter_sublist
  next =>
    split at h
    next => cases h
    next =>
      rw [← Except.ok.inj h]
      exact List.filter_sublist

section Perform

variable {α β : Type} {g : Progress p.store} {step : Writer.Step α} {result : α → β} {planned : β}
  {message : Text} {fields : List (Text × Log.Value)}

theorem perform_of_dryRun (h : p.options.dryRun = true) :
    perform p g step result planned message fields = (.ok planned, g) := by
  simp [perform, h]

theorem perform_cases (h : p.options.dryRun = false) :
    (perform p g step result planned message fields).2.files = step.files ∧
    (perform p g step result planned message fields).2.memo = g.memo ∧
    ((∃ a, step.outcome = .ok a ∧
        (perform p g step result planned message fields).1 = .ok (result a)) ∨
      ∃ f, step.outcome = .error f ∧
        (perform p g step result planned message fields).1 = .error (.writing f)) := by
  unfold perform
  simp only [h, Bool.false_eq_true, if_false]
  cases step.outcome with
  | ok a => exact ⟨rfl, rfl, .inl ⟨a, rfl, rfl⟩⟩
  | error f => exact ⟨rfl, rfl, .inr ⟨f, rfl, rfl⟩⟩

end Perform

section Task

variable {α : Type}

structure Task (α : Type) where
  body : Text
  path : Text
  write : Files.Tree → Text → Writer.Step α
  failure : Expansion.Failure → Failure
  unresolved : Text × List (Text × Log.Value)
  unwritten : Text × List (Text × Log.Value)

variable (p) in
def carryOut (t : Task α) (g : Progress p.store) : Outcome Text × Progress p.store :=
  match expand p g t.body with
  | (.error f, g) => g.failed (t.failure f) t.unresolved.1 t.unresolved.2
  | (.ok content, g) =>
    perform p g (t.write g.files content) (fun _ => t.path) t.path t.unwritten.1 t.unwritten.2

variable (p) in
def outputTask (out : Output) : Task Action where
  body := out.body
  path := p.writer.target out
  write files content := p.writer.writeOutput files out content
  failure := .output out.target
  unresolved := ("Could not resolve output block", [("source", .text out.source)])
  unwritten := ("Could not write output", [("path", .text (p.writer.target out))])

variable (p) in
def injectionTask (inj : Injection) : Task Unit where
  body := inj.body.dropFinalLf
  path := p.writer.injectionTarget inj
  write files content := p.writer.inject files inj
    ((p.context files).provenance (.injection inj) inj.name ++ content)
  failure := .injection inj.name
  unresolved := ("Could not resolve injection block", [("source", .text inj.source)])
  unwritten := ("Could not inject block", [("name", .text inj.name)])

def TaskFate (path : Text) (o : Outcome Text) : Prop := o = .ok path ∨ ∃ f, o = .error f

theorem successes_of_fates {β : Type} {path : β → Text} {bs : List β} {os : List (Outcome Text)}
    (h : List.Forall₂ (fun b => TaskFate (path b)) bs os) :
    ∃ done : List β, done.Sublist bs ∧ successes os = done.map path := by
  induction h with
  | nil => exact ⟨[], .slnil, rfl⟩
  | @cons b o bs os ho _ ih =>
    obtain ⟨done, hsublist, hdone⟩ := ih
    rcases ho with rfl | ⟨f, rfl⟩
    · exact ⟨b :: done, hsublist.cons_cons b, congrArg (path b :: ·) hdone⟩
    · exact ⟨done, hsublist.cons b, hdone⟩

variable (t : Task α) (g : Progress p.store)

theorem carryOut_cases :
    (carryOut p t g).2.memo = (expand p g t.body).2.memo ∧
    ((∃ f, (expand p g t.body).1 = .error f ∧ (carryOut p t g).1 = .error (t.failure f) ∧
        (carryOut p t g).2.files = g.files) ∨
      ∃ content, (expand p g t.body).1 = .ok content ∧
        (p.options.dryRun = true ∧ (carryOut p t g).1 = .ok t.path ∧
            (carryOut p t g).2.files = g.files ∨
          p.options.dryRun = false ∧
            (carryOut p t g).2.files = (t.write g.files content).files ∧
            ((∃ a, (t.write g.files content).outcome = .ok a ∧ (carryOut p t g).1 = .ok t.path) ∨
              ∃ f, (t.write g.files content).outcome = .error f ∧
                (carryOut p t g).1 = .error (.writing f)))) := by
  have hfiles : (expand p g t.body).2.files = g.files := rfl
  unfold carryOut
  rcases hexpand : expand p g t.body with ⟨f | content, g'⟩
  · rw [hexpand] at hfiles
    exact ⟨rfl, .inl ⟨f, rfl, rfl, hfiles⟩⟩
  · rw [hexpand] at hfiles
    dsimp only at hfiles ⊢
    cases hdry : p.options.dryRun with
    | true =>
      rw [perform_of_dryRun hdry]
      exact ⟨rfl, .inr ⟨content, rfl, .inl ⟨rfl, rfl, hfiles⟩⟩⟩
    | false =>
      rw [hfiles]
      obtain ⟨hwritten, hmemo, houtcome⟩ := @perform_cases p _ _ g' (t.write g.files content)
        (fun _ => t.path) t.path t.unwritten.1 t.unwritten.2 hdry
      exact ⟨hmemo, .inr ⟨content, rfl, .inr ⟨rfl, hwritten, houtcome⟩⟩⟩

theorem fst_carryOut : TaskFate t.path (carryOut p t g).1 := by
  obtain ⟨-, ⟨f, -, h, -⟩ | ⟨content, -, ⟨-, h, -⟩ | ⟨-, -, ⟨a, -, h⟩ | ⟨f, -, h⟩⟩⟩⟩ :=
    carryOut_cases t g
  · exact .inr ⟨_, h⟩
  · exact .inl h
  · exact .inl h
  · exact .inr ⟨_, h⟩

theorem files_carryOut_of_dryRun (h : p.options.dryRun = true) :
    (carryOut p t g).2.files = g.files := by
  obtain ⟨-, ⟨f, -, -, hfiles⟩ | ⟨content, -, ⟨-, -, hfiles⟩ | ⟨hdry, -⟩⟩⟩ := carryOut_cases t g
  · exact hfiles
  · exact hfiles
  · simp [h] at hdry

end Task

section Documents

variable (g : Progress p.store)

theorem files_readImport (i : Import) : (readImport p g i).2.files = g.files :=
  (readImport_cases g i).1

theorem writeImports_of_dryRun (h : p.options.dryRun = true)
    (group : Text × List (Import × Text)) : writeImports p g group = (.ok group.1, g) :=
  perform_of_dryRun h

theorem writeImports_cases (h : p.options.dryRun = false) (group : Text × List (Import × Text)) :
    (writeImports p g group).1 = .ok group.1 ∨
      ∃ f, (Writer.importInto g.files group.1 group.2).outcome = .error f ∧
        (writeImports p g group).1 = .error (.writing f) := by
  obtain ⟨-, -, ⟨a, -, houtcome⟩ | hfailed⟩ := @perform_cases p _ _ g
    (Writer.importInto g.files group.1 group.2) (fun _ => group.1) group.1
    "Could not import into document" [("path", .text group.1)] h
  · exact .inl houtcome
  · exact .inr hfailed

theorem files_writeImports_of_dryRun (h : p.options.dryRun = true) (g : Progress p.store)
    (group : Text × List (Import × Text)) : (writeImports p g group).2.files = g.files := by
  rw [writeImports_of_dryRun g h]

theorem files_writePull_of_dryRun (h : p.options.dryRun = true) (q : Pull) :
    (writePull p g q).2.files = g.files := by
  rw [writePull_eq]
  cases p.store.customFor? q with
  | none => rfl
  | some c => dsimp only; rw [perform_of_dryRun h]

end Documents

theorem files_write_of_dryRun (h : p.options.dryRun = true) (documents : List (Outcome Lexed))
    (faults : List Config.Fault) (outputs : List Output) (files : Files.Tree)
    (log : List Log.Entry) : (write p documents faults outputs files log).files = files := by
  unfold write
  dsimp only
  -- From the last phase back to the first.
  refine (files_each (fun g q => files_writePull_of_dryRun g h q) ..).trans ?_
  refine (files_each (files_writeImports_of_dryRun h) ..).trans ?_
  refine (files_each files_readImport ..).trans ?_
  refine (files_each (fun g inj => files_carryOut_of_dryRun (injectionTask p inj) g h) ..).trans ?_
  exact files_each (fun g out => files_carryOut_of_dryRun (outputTask p out) g h) ..

end Tangle.Run
