import Tangle.Proofs.Files.Growth
import Tangle.Proofs.Run.Lasting

namespace Tangle

open Text Files Files.Tree

theorem Writer.writeOutput_cases (w : Writer) (files : Files.Tree) (out : Output) (content : Text) :
    (∃ f, (w.writeOutput files out content).outcome = .error f ∧
      Grows [] (directoriesFor (w.target out)) files (w.writeOutput files out content).files) ∨
    ∃ a, (w.writeOutput files out content).outcome = .ok a ∧
      Grows [w.target out] (directoriesFor (w.target out)) files
        (w.writeOutput files out content).files ∧
      ∃ e, (w.writeOutput files out content).files.get? (w.target out) = some e ∧
        e.content = content := by
  unfold writeOutput
  dsimp only
  split
  next => exact .inl ⟨_, rfl, .refl ..⟩
  next files' hmake =>
    have hgrows := grows_makeDirectory hmake
    unfold put
    split
    next => exact .inl ⟨_, rfl, hgrows.mono (List.Subset.refl _) (List.subset_append_left ..)⟩
    next files'' hwrite =>
      obtain ⟨hwritten, hcontent⟩ := grows_write hwrite
      exact .inr ⟨_, rfl, hgrows.trans hwritten, hcontent⟩

namespace Run

section Successes

variable {α : Type}

@[simp] theorem successes_ok (a : α) (os : List (Outcome α)) :
    successes (.ok a :: os) = a :: successes os := rfl

@[simp] theorem successes_error (f : Failure) (os : List (Outcome α)) :
    successes (.error f :: os) = successes os := rfl

@[simp] theorem successes_append (os os' : List (Outcome α)) :
    successes (os ++ os') = successes os ++ successes os' :=
  List.filterMap_append ..

end Successes

section Each

variable {σ α β : Type} (act : σ → α → β × σ) (s : σ)

theorem each_append (as bs : List α) :
    each act s (as ++ bs) =
      ((each act s as).1 ++ (each act (each act s as).2 bs).1, (each act (each act s as).2 bs).2) := by
  induction as generalizing s with
  | nil => rfl
  | cons a as ih => simp [each, ih]

end Each

variable {p : Plan}

section Step

variable (g : Progress p.store) (out : Output)

def resolved (p : Plan) (g : Progress p.store) (out : Output) : Except Expansion.Failure Text :=
  ((p.context g.files).resolve g.memo out.body).1

theorem memo_writeOutput :
    (writeOutput p g out).2.memo = ((p.context g.files).resolve g.memo out.body).2.memo := by
  unfold writeOutput expand
  rcases (p.context g.files).resolve g.memo out.body with ⟨f | content, session⟩
  · rfl
  · dsimp only [perform]
    split
    next => rfl
    next => split <;> rfl

theorem writeOutput_of_error {f : Expansion.Failure} (h : resolved p g out = .error f) :
    (writeOutput p g out).1 = .error (.output out.target f) ∧
      (writeOutput p g out).2.files = g.files := by
  unfold resolved at h
  unfold writeOutput expand
  rcases hr : (p.context g.files).resolve g.memo out.body with ⟨f' | content, session⟩
  · rw [hr] at h
    obtain rfl := Except.error.inj h
    exact ⟨rfl, rfl⟩
  · rw [hr] at h
    cases h

theorem writeOutput_of_ok {text : Text} (hdry : p.options.dryRun = false)
    (h : resolved p g out = .ok text) :
    (writeOutput p g out).2.files = (p.writer.writeOutput g.files out text).files ∧
      (writeOutput p g out).1 =
        match (p.writer.writeOutput g.files out text).outcome with
        | .ok _ => .ok (p.writer.target out)
        | .error f => .error (.writing f) := by
  unfold resolved at h
  unfold writeOutput expand
  rcases hr : (p.context g.files).resolve g.memo out.body with ⟨f | content, session⟩
  · rw [hr] at h
    cases h
  · rw [hr] at h
    obtain rfl := Except.ok.inj h
    simp only [perform, hdry, Bool.false_eq_true, if_false]
    cases (p.writer.writeOutput g.files out content).outcome <;> exact ⟨rfl, rfl⟩

theorem writeOutput_cases (hdry : p.options.dryRun = false) :
    (∃ f, (writeOutput p g out).1 = .error f ∧
      Grows [] (directoriesFor (p.writer.target out)) g.files (writeOutput p g out).2.files) ∨
    ∃ text, resolved p g out = .ok text ∧ (writeOutput p g out).1 = .ok (p.writer.target out) ∧
      Grows [p.writer.target out] (directoriesFor (p.writer.target out)) g.files
        (writeOutput p g out).2.files ∧
      ∃ e, (writeOutput p g out).2.files.get? (p.writer.target out) = some e ∧ e.content = text := by
  cases hr : resolved p g out with
  | error f =>
    obtain ⟨houtcome, hfiles⟩ := writeOutput_of_error g out hr
    rw [hfiles]
    exact .inl ⟨_, houtcome, .refl ..⟩
  | ok text =>
    obtain ⟨hfiles, houtcome⟩ := writeOutput_of_ok g out hdry hr
    rw [hfiles]
    rcases p.writer.writeOutput_cases g.files out text with
      ⟨f, hf, hgrows⟩ | ⟨a, ha, hgrows, hcontent⟩
    · rw [hf] at houtcome
      exact .inl ⟨_, houtcome, hgrows⟩
    · rw [ha] at houtcome
      exact .inr ⟨text, rfl, houtcome, hgrows, hcontent⟩

end Step

theorem grows_writeOutputs (hdry : p.options.dryRun = false) (g : Progress p.store)
    (outputs : List Output) :
    Grows (successes (each (writeOutput p) g outputs).1)
      (outputs.flatMap fun out => directoriesFor (p.writer.target out)) g.files
      (each (writeOutput p) g outputs).2.files := by
  induction outputs generalizing g with
  | nil => exact .refl ..
  | cons out outputs ih =>
    have hrest := ih (writeOutput p g out).2
    rcases writeOutput_cases g out hdry with ⟨f, hf, hgrows⟩ | ⟨text, -, hok, hgrows, -⟩
    · simpa [each, hf] using hgrows.trans hrest
    · simpa [each, hok] using hgrows.trans hrest

section Reading

variable {files : Files.Tree} {g : Progress p.store}

/-- References read as in `files`, and what is remembered is right there. -/
structure Faithful (files : Files.Tree) (g : Progress p.store) : Prop where
  truthful : (p.context files).Truthful ((p.context files).start g.memo)
  read_iff : ∀ r ∈ p.store.references, ∀ content,
    g.files.read (p.base.resolve r.ref.path) = .ok content ↔
      files.read (p.base.resolve r.ref.path) = .ok content

namespace Faithful

theorem truthful_here (h : Faithful files g) :
    (p.context g.files).Truthful ((p.context g.files).start g.memo) := by
  intro i text hi
  have hembeds : (p.context files).Embeds (p.context g.files) _ :=
    (Agree.refl p).embeds fun r hr content => (h.read_iff r hr content).2
  exact hembeds.settles rfl (h.truthful i text hi)

theorem resolved_iff (hstore : p.store.ColonFree) (h : Faithful files g) {out : Output}
    {text : Text} :
    resolved p g out = .ok text ↔ ((p.context files).resolve [] out.body).1 = .ok text := by
  have hto : (p.context g.files).Embeds (p.context files) _ :=
    (Agree.refl p).embeds fun r hr content => (h.read_iff r hr content).1
  have hof : (p.context files).Embeds (p.context g.files) _ :=
    (Agree.refl p).embeds fun r hr content => (h.read_iff r hr content).2
  exact ⟨hto.resolve hstore hstore h.truthful_here .start,
    hof.resolve hstore hstore .start h.truthful_here⟩

theorem writeOutput (h : Faithful files g) (out : Output)
    (hread : ∀ r ∈ p.store.references, ∀ content,
      (writeOutput p g out).2.files.read (p.base.resolve r.ref.path) = .ok content ↔
        files.read (p.base.resolve r.ref.path) = .ok content) :
    Faithful files (writeOutput p g out).2 := by
  refine ⟨fun i text hi => ?_, hread⟩
  have hembeds : (p.context g.files).Embeds (p.context files) _ :=
    (Agree.refl p).embeds fun r hr content => (h.read_iff r hr content).1
  rw [memo_writeOutput] at hi
  exact hembeds.settles rfl (h.truthful_here.resolve out.body i text hi)

end Faithful

theorem resolved_congr (hstore : p.store.ColonFree) {g' : Progress p.store}
    (hfiles : g'.files = g.files) (h : Faithful files g) (h' : Faithful files g') (out : Output) :
    resolved p g' out = resolved p g out := by
  have htruthful := h'.truthful_here
  unfold resolved
  rw [hfiles] at htruthful ⊢
  rw [Expansion.Context.fst_resolve hstore htruthful,
    Expansion.Context.fst_resolve hstore h.truthful_here]

theorem writeOutput_congr (hdry : p.options.dryRun = false) {g' : Progress p.store} {out : Output}
    (hfiles : g'.files = g.files) (h : resolved p g' out = resolved p g out) :
    (writeOutput p g' out).1 = (writeOutput p g out).1 ∧
      (writeOutput p g' out).2.files = (writeOutput p g out).2.files := by
  cases hr : resolved p g out with
  | error f =>
    obtain ⟨houtcome, hsame⟩ := writeOutput_of_error g out hr
    obtain ⟨houtcome', hsame'⟩ := writeOutput_of_error g' out (h.trans hr)
    exact ⟨houtcome'.trans houtcome.symm, hsame'.trans (hfiles.trans hsame.symm)⟩
  | ok text =>
    obtain ⟨hsame, houtcome⟩ := writeOutput_of_ok g out hdry hr
    obtain ⟨hsame', houtcome'⟩ := writeOutput_of_ok g' out hdry (h.trans hr)
    rw [hfiles] at hsame' houtcome'
    exact ⟨houtcome'.trans houtcome.symm, hsame'.trans hsame.symm⟩

end Reading

section Phase

variable (p) in
def writeOutputs (files : Files.Tree) (log : List Log.Entry) (outputs : List Output) :
    List (Outcome Text) × Progress p.store :=
  each (writeOutput p) ⟨files, [], log⟩ outputs

variable {files : Files.Tree} {log : List Log.Entry} {before after : List Output}

theorem writeOutputs_append :
    writeOutputs p files log (before ++ after) =
      ((writeOutputs p files log before).1 ++
          (each (writeOutput p) (writeOutputs p files log before).2 after).1,
        (each (writeOutput p) (writeOutputs p files log before).2 after).2) :=
  each_append ..

variable (p) in
/-- The phase neither writes nor makes a file that a reference points at. -/
def SparesReferences (files : Files.Tree) (log : List Log.Entry) (outputs : List Output) : Prop :=
  ∀ r ∈ p.store.references,
    Spared (successes (writeOutputs p files log outputs).1) (p.base.resolve r.ref.path) ∧
      (files.get? (p.base.resolve r.ref.path) = none →
        (writeOutputs p files log outputs).2.files.get? (p.base.resolve r.ref.path) = none)

instance (files : Files.Tree) (log : List Log.Entry) (outputs : List Output) :
    Decidable (SparesReferences p files log outputs) :=
  inferInstanceAs (Decidable (∀ r ∈ p.store.references, _))

theorem SparesReferences.of_append (hdry : p.options.dryRun = false)
    (h : SparesReferences p files log (before ++ after)) : SparesReferences p files log before := by
  intro r hr
  obtain ⟨hspared, hnone⟩ := h r hr
  rw [writeOutputs_append] at hspared hnone
  refine ⟨fun w hw => hspared w (by simp [hw]), fun hget => ?_⟩
  have hgrows := grows_writeOutputs hdry (writeOutputs p files log before).2 after
  cases hsome : (writeOutputs p files log before).2.files.get? (p.base.resolve r.ref.path) with
  | none => rfl
  | some e =>
    have hpresent := hgrows.present (q := p.base.resolve r.ref.path) (by simp [hsome])
    simp [hnone hget] at hpresent

theorem SparesReferences.read_iff (hdry : p.options.dryRun = false)
    (hrooted : files.medium = .disk → files.Rooted) (h : SparesReferences p files log before)
    (r : Reference) (hr : r ∈ p.store.references) (content : Text) :
    (writeOutputs p files log before).2.files.read (p.base.resolve r.ref.path) = .ok content ↔
      files.read (p.base.resolve r.ref.path) = .ok content := by
  obtain ⟨hspared, hnone⟩ := h r hr
  have hgrows : Grows _ _ files (writeOutputs p files log before).2.files :=
    grows_writeOutputs hdry ⟨files, [], log⟩ before
  exact ⟨hgrows.of_read hrooted hspared hnone, hgrows.read hrooted hspared⟩

theorem SparesReferences.faithful (hdry : p.options.dryRun = false)
    (hrooted : files.medium = .disk → files.Rooted) (h : SparesReferences p files log before) :
    Faithful files (writeOutputs p files log before).2 := by
  induction before using List.reverseRecOn with
  | nil => exact ⟨.start, fun r hr content => Iff.rfl⟩
  | append_singleton before out ih =>
    have hread := h.read_iff hdry hrooted
    rw [writeOutputs_append] at hread ⊢
    exact (ih (h.of_append hdry)).writeOutput out hread

theorem each_writeOutput_congr (hdry : p.options.dryRun = false) (hstore : p.store.ColonFree)
    {g g' : Progress p.store} {outputs : List Output} (hfiles : g'.files = g.files)
    (hg : Faithful files g) (hg' : Faithful files g')
    (hread : ∀ n, ∀ r ∈ p.store.references, ∀ content,
      (each (writeOutput p) g (outputs.take n)).2.files.read (p.base.resolve r.ref.path) =
        .ok content ↔ files.read (p.base.resolve r.ref.path) = .ok content) :
    (each (writeOutput p) g' outputs).1 = (each (writeOutput p) g outputs).1 ∧
      (each (writeOutput p) g' outputs).2.files = (each (writeOutput p) g outputs).2.files := by
  induction outputs generalizing g g' with
  | nil => exact ⟨rfl, hfiles⟩
  | cons out outputs ih =>
    obtain ⟨houtcome, hfiles⟩ :=
      writeOutput_congr hdry hfiles (resolved_congr hstore hfiles hg hg' out)
    have hnext := hg.writeOutput out (hread 1)
    have hnext' := hg'.writeOutput out (by rw [hfiles]; exact hread 1)
    obtain ⟨hrest, hlast⟩ := ih hfiles hnext hnext' fun n => hread (n + 1)
    exact ⟨congrArg₂ List.cons houtcome hrest, hlast⟩

theorem exists_append_of_getElem? {α : Type} {l : List α} {i : Nat} {a : α} (h : l[i]? = some a) :
    ∃ before after, l = before ++ a :: after ∧ before.length = i := by
  obtain ⟨hi, rfl⟩ := List.getElem?_eq_some_iff.1 h
  exact ⟨l.take i, l.drop (i + 1), by simp, by simp; omega⟩

variable (p files log before after) in
theorem writeOutputs_append_cons (out : Output) :
    (writeOutputs p files log (before ++ out :: after)).1 =
        (writeOutputs p files log before).1 ++
          (writeOutput p (writeOutputs p files log before).2 out).1 ::
          (each (writeOutput p) (writeOutput p (writeOutputs p files log before).2 out).2 after).1 ∧
      (writeOutputs p files log (before ++ out :: after)).2 =
        (each (writeOutput p) (writeOutput p (writeOutputs p files log before).2 out).2 after).2 := by
  rw [writeOutputs_append]
  exact ⟨rfl, rfl⟩

@[simp] theorem length_writeOutputs (outputs : List Output) :
    (writeOutputs p files log outputs).1.length = outputs.length :=
  length_each ..

def LastWritten (outcomes : List (Outcome Text)) (i : Nat) (path : Text) : Prop :=
  outcomes[i]? = some (Except.ok path) ∧
    ∀ j later, i < j → outcomes[j]? = some (Except.ok later) → key later ≠ key path

theorem LastWritten.of_append {os os' : List (Outcome Text)} {o : Outcome Text} {path : Text}
    (h : LastWritten (os ++ o :: os') os.length path) :
    o = .ok path ∧ Spared (successes os') path := by
  obtain ⟨hpath, hlater⟩ := h
  constructor
  · simpa using hpath
  · intro later hmem
    obtain ⟨o', ho', hsome⟩ := List.mem_filterMap.1 hmem
    obtain ⟨k, hk, rfl⟩ := List.getElem_of_mem ho'
    refine hlater (os.length + (k + 1)) later (by omega) ?_
    rw [List.getElem?_append_right (by omega), Nat.add_sub_cancel_left, List.getElem?_cons_succ,
      List.getElem?_eq_getElem hk]
    cases heq : os'[k] with
    | error f => simp [heq, Except.toOption] at hsome
    | ok path' =>
      rw [heq] at hsome
      rw [show path' = later from Option.some.inj hsome]

/-- The files are in the end as if each output had been worked out alone. -/
structure AsAlone (p : Plan) (files : Files.Tree) (log : List Log.Entry) (outputs : List Output)
    (outcomes : List (Outcome Text)) (final : Files.Tree) : Prop where
  holds : ∀ i out path, outputs[i]? = some out → LastWritten outcomes i path →
    path = p.writer.target out ∧ ∃ text, ((p.context files).resolve [] out.body).1 = .ok text ∧
      ((p.context final).resolve [] out.body).1 = .ok text ∧
      ∃ e, final.get? path = some e ∧ e.content = text
  /-- Other files are unchanged, but in memory a file becomes a directory for what is put below it. -/
  unchanged : ∀ q e, Spared (successes outcomes) q → files.get? q = some e →
    final.get? q = some e ∨ files.medium = .memory ∧
      ¬ Spared (outputs.flatMap fun out => directoriesFor (p.writer.target out)) q ∧
      final.get? q = some { e with isDirectory := true }
  new : ∀ q, Spared (successes outcomes) q → files.get? q = none → final.get? q = none ∨
    ¬ Spared (outputs.flatMap fun out => directoriesFor (p.writer.target out)) q ∧
      final.get? q = some .directory
  alone : ∀ i out text, outputs[i]? = some out →
    (resolved p (writeOutputs p files log (outputs.take i)).2 out = .ok text ↔
      ((p.context files).resolve [] out.body).1 = .ok text)
  failing : ∀ i out f, outputs[i]? = some out →
    ((p.context files).resolve [] out.body).1 = .error f →
    (writeOutputs p files log (outputs.eraseIdx i)).1 = outcomes.eraseIdx i ∧
      (writeOutputs p files log (outputs.eraseIdx i)).2.files = final

theorem SparesReferences.holds {out : Output} {path : Text} (hdry : p.options.dryRun = false)
    (hstore : p.store.ColonFree) (hrooted : files.medium = .disk → files.Rooted)
    (hrefs : SparesReferences p files log (before ++ out :: after))
    (hlast : LastWritten (writeOutputs p files log (before ++ out :: after)).1 before.length path) :
    path = p.writer.target out ∧ ∃ text, ((p.context files).resolve [] out.body).1 = .ok text ∧
      ((p.context (writeOutputs p files log (before ++ out :: after)).2.files).resolve []
        out.body).1 = .ok text ∧
      ∃ e, (writeOutputs p files log (before ++ out :: after)).2.files.get? path = some e ∧
        e.content = text := by
  obtain ⟨houtcomes, hstate⟩ := writeOutputs_append_cons p files log before after out
  have hfaithful := (hrefs.of_append hdry).faithful hdry hrooted
  have hembeds : (p.context files).Embeds (p.context _) _ :=
    (Agree.refl p).embeds fun r hr content => (hrefs.read_iff hdry hrooted r hr content).2
  rw [houtcomes, ← length_writeOutputs before] at hlast
  obtain ⟨hpath, hspared⟩ := hlast.of_append
  rcases writeOutput_cases (writeOutputs p files log before).2 out hdry with
    ⟨f, hf, -⟩ | ⟨text, htext, hok, -, e, he, rfl⟩
  · cases hf.symm.trans hpath
  · obtain rfl := Except.ok.inj (hpath.symm.trans hok)
    have hresolve := (hfaithful.resolved_iff hstore).1 htext
    refine ⟨rfl, e.content, hresolve, hembeds.resolve hstore hstore .start .start hresolve, ?_⟩
    -- No later output writes to the file, so its text stays.
    rw [hstate]
    rcases (grows_writeOutputs hdry _ after).kept _ e hspared he with he | ⟨-, -, he⟩
    · exact ⟨_, he, rfl⟩
    · exact ⟨_, he, rfl⟩

theorem SparesReferences.failing {out : Output} {f : Expansion.Failure}
    (hdry : p.options.dryRun = false) (hstore : p.store.ColonFree)
    (hrooted : files.medium = .disk → files.Rooted)
    (hrefs : SparesReferences p files log (before ++ out :: after))
    (hfail : ((p.context files).resolve [] out.body).1 = .error f) :
    (writeOutputs p files log (before ++ after)).1 =
        (writeOutputs p files log (before ++ out :: after)).1.eraseIdx before.length ∧
      (writeOutputs p files log (before ++ after)).2.files =
        (writeOutputs p files log (before ++ out :: after)).2.files := by
  obtain ⟨houtcomes, hstate⟩ := writeOutputs_append_cons p files log before after out
  have hfaithful := (hrefs.of_append hdry).faithful hdry hrooted
  have hsplit : before ++ out :: after = before ++ [out] ++ after := by simp
  have hnext : Faithful files (writeOutput p (writeOutputs p files log before).2 out).2 := by
    have := ((hsplit ▸ hrefs).of_append hdry).faithful hdry hrooted
    rwa [writeOutputs_append] at this
  have hfiles : (writeOutput p (writeOutputs p files log before).2 out).2.files =
      (writeOutputs p files log before).2.files := by
    cases hr : resolved p (writeOutputs p files log before).2 out with
    | error f' => exact (writeOutput_of_error _ _ hr).2
    | ok text => cases hfail.symm.trans ((hfaithful.resolved_iff hstore).1 hr)
  have hread : ∀ n, ∀ r ∈ p.store.references, ∀ content,
      (each (writeOutput p) (writeOutput p (writeOutputs p files log before).2 out).2
        (after.take n)).2.files.read (p.base.resolve r.ref.path) = .ok content ↔
        files.read (p.base.resolve r.ref.path) = .ok content := by
    intro n
    have hlead : before ++ out :: after =
        before ++ [out] ++ after.take n ++ after.drop n := by simp
    have hread := ((hlead ▸ hrefs).of_append hdry).read_iff hdry hrooted
    rwa [writeOutputs_append, writeOutputs_append] at hread
  obtain ⟨hrest, hlast⟩ :=
    each_writeOutput_congr hdry hstore hfiles.symm hnext hfaithful hread
  have hlength : (writeOutputs p files log before).1.length = before.length :=
    length_writeOutputs before
  rw [houtcomes, hstate, writeOutputs_append, ← hlast, ← hrest, ← hlength,
    List.eraseIdx_append_of_length_le le_rfl, Nat.sub_self]
  exact ⟨rfl, rfl⟩

variable {outputs : List Output}

theorem writeOutputs_asAlone (hstore : p.store.ColonFree) (hdry : p.options.dryRun = false)
    (hrooted : files.medium = .disk → files.Rooted)
    (hrefs : SparesReferences p files log outputs) :
    AsAlone p files log outputs (writeOutputs p files log outputs).1
      (writeOutputs p files log outputs).2.files where
  holds i out path hout hlast := by
    obtain ⟨before, after, rfl, rfl⟩ := exists_append_of_getElem? hout
    exact hrefs.holds hdry hstore hrooted hlast
  unchanged := (grows_writeOutputs hdry ⟨files, [], log⟩ outputs).kept
  new := (grows_writeOutputs hdry ⟨files, [], log⟩ outputs).added
  alone i out text hout := by
    obtain ⟨before, after, rfl, rfl⟩ := exists_append_of_getElem? hout
    rw [List.take_left]
    exact ((hrefs.of_append hdry).faithful hdry hrooted).resolved_iff hstore
  failing i out f hout hfail := by
    obtain ⟨before, after, rfl, rfl⟩ := exists_append_of_getElem? hout
    have herase : (before ++ out :: after).eraseIdx before.length = before ++ after := by
      simp [List.eraseIdx_append_of_length_le]
    rw [herase]
    exact hrefs.failing hdry hstore hrooted hfail

def shop : Plan where
  options := { Options.defaults with outputSource := false }
  base := ⟨"/p"⟩
  store := ⟨[.code ⟨⟨"d.md", "x \x7b\x7b\x7b r \x7d\x7d\x7d\n", 1, 3⟩, "a"⟩,
    .reference ⟨⟨"d.md", "n.txt\n", 5, 7⟩, "r", ⟨"n.txt", 0, 0, []⟩⟩,
    .code ⟨⟨"d.md", "\x7b\x7b\x7bc\x7d\x7d\x7d\n", 9, 11⟩, "c"⟩]⟩

def shopFiles : Files.Tree where
  medium := .disk
  entries := [("/", .directory), ("/p", .directory), ("/p/n.txt", .file "1\n"), ("/p/k", .file "k")]
  denied := { write := ["/p/b.js"] }

def shopOutputs : List Output :=
  [⟨⟨"d.md", "\x7b\x7b\x7b a \x7d\x7d\x7d\n", 13, 15⟩, "s/a.js", []⟩,
    ⟨⟨"d.md", "\x7b\x7b\x7b a \x7d\x7d\x7d\x7b\x7b\x7b c \x7d\x7d\x7d\n", 17, 19⟩, "c.js", []⟩,
    ⟨⟨"d.md", "\x7b\x7b\x7b a \x7d\x7d\x7d\n", 21, 23⟩, "b.js", []⟩,
    ⟨⟨"d.md", "2 \x7b\x7b\x7b a \x7d\x7d\x7d\n", 25, 27⟩, "./s/a.js", []⟩]

theorem writeOutputs_asAlone_shop :
    shop.store.ColonFree ∧ shopFiles.Rooted ∧ SparesReferences shop shopFiles [] shopOutputs ∧
      (writeOutputs shop shopFiles [] shopOutputs).1.map Except.toOption =
        [some (ofString "/p/s/a.js"), none, none, some (ofString "/p/s/a.js")] ∧
      (writeOutputs shop shopFiles [] shopOutputs).2.files.get? "/p/s/a.js" =
        some (.file "2 x 1\n") ∧
      AsAlone shop shopFiles [] shopOutputs (writeOutputs shop shopFiles [] shopOutputs).1
        (writeOutputs shop shopFiles [] shopOutputs).2.files := by
  have hstore : shop.store.ColonFree := by decide
  have hrooted : shopFiles.Rooted := by decide +kernel
  have hrefs : SparesReferences shop shopFiles [] shopOutputs := by decide +kernel
  refine ⟨hstore, hrooted, hrefs, by decide +kernel, by decide +kernel, ?_⟩
  exact writeOutputs_asAlone hstore rfl (fun _ => hrooted) hrefs

/-- A file stands where `blockedOutput` needs a directory. -/
def blocked : Files.Tree where
  medium := .memory
  entries := [("/", .directory), ("/p", .directory), ("/p/k", .file "k")]

def blockedOutput : Output := ⟨⟨"d.md", "y\n", 1, 3⟩, "k/x.js", []⟩

/-- In memory a file above an output does not stay a file. -/
theorem writeOutputs_blocked :
    let p : Plan := { shop with store := .empty }
    let result := writeOutputs p blocked [] [blockedOutput]
    p.store.ColonFree ∧ p.options.dryRun = false ∧
      SparesReferences p blocked [] [blockedOutput] ∧
      successes result.1 = [ofString "/p/k/x.js"] ∧ blocked.get? "/p/k" = some (.file "k") ∧
      result.2.files.get? "/p/k" = some ⟨"k", true⟩ ∧
      result.2.files.files = [(ofString "/p/k/x.js", ofString "y\n")] := by
  decide +kernel

end Phase

end Run

end Tangle
