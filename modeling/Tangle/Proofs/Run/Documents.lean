import Tangle.Proofs.Files.Rewrite
import Tangle.Proofs.Run.Output
import Tangle.Proofs.Write.Pending

namespace Tangle

open Text Files Files.Tree

namespace Store

def customFor? (s : Store) (q : Pull) : Option Custom :=
  match (s.findFrom? .custom q.name (Path.clean · = q.document)).map s.get with
  | some (.custom c) => some c
  | _ => none

end Store

namespace Run

section Outcomes

variable {α : Type} {os : List (Outcome α)}

theorem failures_eq_nil : failures os = [] ↔ ∀ o ∈ os, ∃ a, o = .ok a := by
  simp only [failures, List.filterMap_eq_nil_iff]
  refine forall₂_congr fun o _ => ?_
  cases o <;> simp [failure?]

end Outcomes

section Edited

variable {α β : Type} {s : Store}

/-- The text `t` becomes `u` in steps, one for each thing in turn. -/
inductive Edited (S : α → Text → Text → Prop) : List α → Text → Text → Prop
  | nil (t : Text) : Edited S [] t t
  | cons {a : α} {as : List α} {t u v : Text} (step : S a t u) (rest : Edited S as u v) :
    Edited S (a :: as) t v

theorem each_edits (S : α → Text → Text → Prop) (target : α → Text)
    {act : Progress s → α → Outcome β × Progress s}
    (hact : ∀ g a b, (act g a).1 = .ok b → Retexts [target a] g.files (act g a).2.files ∧
      ∃ e out, g.files.get? (target a) = some e ∧ S a e.content out ∧
        (act g a).2.files.get? (target a) = some { e with content := out })
    {g : Progress s} {as : List α} (hok : failures (each act g as).1 = []) :
    Retexts (as.map target) g.files (each act g as).2.files ∧
      ∀ q e, g.files.get? q = some e → ∃ out,
        Edited S (as.filter fun a => key (target a) = key q) e.content out ∧
        (each act g as).2.files.get? q = some { e with content := out } := by
  induction as generalizing g with
  | nil => exact ⟨.refl .., fun q e he => ⟨e.content, .nil _, he⟩⟩
  | cons a as ih =>
    have hall := failures_eq_nil.1 hok
    simp only [each, List.forall_mem_cons] at hall
    obtain ⟨⟨b, hb⟩, hrest⟩ := hall
    obtain ⟨hretexts, e₀, out₀, he₀, hstep, hout₀⟩ := hact g a b hb
    obtain ⟨hlater, hedited⟩ := ih (failures_eq_nil.2 hrest)
    refine ⟨hretexts.trans hlater, fun q e he => ?_⟩
    by_cases hkey : key (target a) = key q
    · obtain rfl : e₀ = e := by
        rw [get?, hkey] at he₀
        exact Option.some.inj (he₀.symm.trans he)
      have hq : (act g a).2.files.get? q = some { e₀ with content := out₀ } := by
        rw [get?, ← hkey]
        exact hout₀
      obtain ⟨out, hout, hget⟩ := hedited q _ hq
      rw [List.filter_cons_of_pos (by simpa using hkey)]
      exact ⟨out, .cons hstep hout, hget⟩
    · have hq : (act g a).2.files.get? q = some e := by
        rw [hretexts.kept q, he]
        simpa [Spared] using hkey
      rw [List.filter_cons_of_neg (by simpa using hkey)]
      exact hedited q e hq

end Edited

section Steps

variable {p : Plan} {g : Progress p.store}

def SplicesIn (group : Text × List (Import × Text)) (t out : Text) : Prop :=
  Patch.spliceImports t group.2 = .ok out

def PullsIn (s : Store) (q : Pull) (t out : Text) : Prop :=
  ∃ c, s.customFor? q = some c ∧ out = (Patch.pull? t q.marker q.path q.name c.body).getD t

theorem perform_eq_ok {α β : Type} {step : Writer.Step α} {result : α → β} {planned b : β}
    {message : Text} {fields : List (Text × Log.Value)} (hdry : p.options.dryRun = false)
    (h : (perform p g step result planned message fields).1 = .ok b) :
    (∃ a, step.outcome = .ok a ∧ result a = b) ∧
      (perform p g step result planned message fields).2.files = step.files := by
  unfold perform at h ⊢
  simp only [hdry, Bool.false_eq_true, if_false] at h ⊢
  cases hstep : step.outcome with
  | error f => simp [hstep, Progress.failed] at h
  | ok a =>
    rw [hstep] at h
    exact ⟨⟨a, rfl, Except.ok.inj h⟩, rfl⟩

theorem of_put_eq_ok {α : Type} {files : Files.Tree} {path text content : Text} {result a : α}
    {entry : Log.Entry} (hread : files.read path = .ok text)
    (h : (Writer.put files path content result entry).outcome = .ok a) :
    Retexts [path] files (Writer.put files path content result entry).files ∧
      ∃ e, files.get? path = some e ∧ e.content = text ∧
        (Writer.put files path content result entry).files.get? path = some { e with content } := by
  obtain ⟨-, e, he, htext, -⟩ := read_eq_ok.1 hread
  unfold Writer.put at h ⊢
  cases hwrite : files.write path content with
  | error f => simp [hwrite, Writer.Step.fail] at h
  | ok files' =>
    rw [write_of_get? he hwrite]
    exact ⟨.set he content, e, he, htext, get?_set_self ..⟩

theorem writeImports_edits (hdry : p.options.dryRun = false) (g : Progress p.store)
    (group : Text × List (Import × Text)) (b : Text) (h : (writeImports p g group).1 = .ok b) :
    Retexts [group.1] g.files (writeImports p g group).2.files ∧
      ∃ e out, g.files.get? group.1 = some e ∧ SplicesIn group e.content out ∧
        (writeImports p g group).2.files.get? group.1 = some { e with content := out } := by
  unfold writeImports at h ⊢
  obtain ⟨⟨a, ha, -⟩, hfiles⟩ := perform_eq_ok hdry h
  rw [hfiles]
  unfold Writer.importInto at ha ⊢
  cases hread : g.files.read group.1 with
  | error e => simp [hread, Writer.Step.fail] at ha
  | ok text =>
    rw [hread] at ha
    dsimp only at ha ⊢
    cases hsplice : Patch.spliceImports text group.2 with
    | error f => simp [hsplice, Writer.Step.fail] at ha
    | ok out =>
      rw [hsplice] at ha
      obtain ⟨hretexts, e, he, rfl, hget⟩ := of_put_eq_ok hread ha
      exact ⟨hretexts, e, out, he, hsplice, hget⟩

theorem writePull_eq (g : Progress p.store) (q : Pull) :
    writePull p g q =
      match p.store.customFor? q with
      | some c => perform p g (Writer.pull g.files q c)
          (fun action => if action = .patched then some q.source else none) (some q.source)
          "Could not pull block" [("into", .text q.source)]
      | none => g.failed (if g.files.exists? q.document then .blockMissing q.name q.document
          else .sourceMissing q.document) "Could not pull block" [("into", .text q.source)] := by
  unfold writePull Store.customFor?
  dsimp only
  cases (p.store.findFrom? .custom q.name (Path.clean · = q.document)).map p.store.get with
  | none => rfl
  | some b => cases b <;> rfl

theorem writePull_edits (hdry : p.options.dryRun = false) (g : Progress p.store) (q : Pull)
    (b : Option Text) (h : (writePull p g q).1 = .ok b) :
    Retexts [q.source] g.files (writePull p g q).2.files ∧
      ∃ e out, g.files.get? q.source = some e ∧ PullsIn p.store q e.content out ∧
        (writePull p g q).2.files.get? q.source = some { e with content := out } := by
  rw [writePull_eq] at h ⊢
  unfold PullsIn
  cases hc : p.store.customFor? q with
  | none =>
    rw [hc] at h
    simp [Progress.failed] at h
  | some c =>
    rw [hc] at h
    dsimp only at h ⊢
    obtain ⟨⟨a, ha, -⟩, hfiles⟩ := perform_eq_ok hdry h
    rw [hfiles]
    unfold Writer.pull at ha ⊢
    cases hread : g.files.read q.source with
    | error e => simp [hread, Writer.Step.fail] at ha
    | ok text =>
      rw [hread] at ha
      dsimp only at ha ⊢
      cases hpull : Patch.pull? text q.marker q.path q.name c.body with
      | some out =>
        rw [hpull] at ha
        obtain ⟨hretexts, e, he, rfl, hget⟩ := of_put_eq_ok hread ha
        exact ⟨hretexts, e, out, he, ⟨c, rfl, by rw [hpull]; rfl⟩, hget⟩
      | none =>
        rw [hpull] at ha
        obtain ⟨-, e, he, rfl, -⟩ := read_eq_ok.1 hread
        dsimp only at ha ⊢
        split
        next => exact ⟨.refl .., e, e.content, he, ⟨c, rfl, by rw [hpull]; rfl⟩, he⟩
        next hmissing => simp [hmissing, Writer.Step.fail] at ha

end Steps

section Imports

variable {p : Plan}

theorem readImport_cases (g : Progress p.store) (i : Import) :
    (readImport p g i).2.files = g.files ∧
      ∀ c, (readImport p g i).1 = .ok c → c.1 = i := by
  unfold readImport
  cases Extract.fetch g.files p.base i.ref with
  | ok content => exact ⟨rfl, fun c hc => by rw [← Except.ok.inj hc]⟩
  | error f =>
    cases f with
    | tagNotClosed file tag content => exact ⟨rfl, fun c hc => by rw [← Except.ok.inj hc]⟩
    | _ => exact ⟨rfl, fun c hc => by cases hc⟩

theorem each_readImport (g : Progress p.store) (is : List Import) :
    (each (readImport p) g is).2.files = g.files ∧
      (failures (each (readImport p) g is).1 = [] →
        (successes (each (readImport p) g is).1).map Prod.fst = is) := by
  induction is generalizing g with
  | nil => exact ⟨rfl, fun _ => rfl⟩
  | cons i is ih =>
    obtain ⟨hfiles, himport⟩ := readImport_cases g i
    obtain ⟨hrest, hsuccesses⟩ := ih (readImport p g i).2
    refine ⟨hrest.trans hfiles, fun hok => ?_⟩
    have hall := failures_eq_nil.1 hok
    simp only [each, List.forall_mem_cons] at hall ⊢
    obtain ⟨⟨c, hc⟩, hall⟩ := hall
    rw [hc, successes_ok, List.map_cons, himport c hc, hsuccesses (failures_eq_nil.2 hall)]

theorem spliceImports_of_edited {is : List (Import × Text)} {d t out : Text}
    (hkeys : ∀ i ∈ is, key i.1.source = i.1.source) (hd : key d = d)
    (h : Edited SplicesIn ((byDocument is).filter fun group => key group.1 = key d) t out) :
    Patch.spliceImports t (is.filter (·.1.source = d)) = .ok out := by
  have hgroups : (byDocument is).filter (fun group => key group.1 = key d) =
      ((is.map (·.1.source)).eraseDups.filter (· = d)).map fun d =>
        (d, is.filter (·.1.source = d)) := by
    rw [byDocument, List.filter_map]
    congr 1
    apply List.filter_congr
    intro source hsource
    obtain ⟨i, hi, rfl⟩ := List.mem_map.1 (List.mem_eraseDups.1 hsource)
    simp [hkeys i hi, hd]
  rw [hgroups, List.filter_eq] at h
  by_cases hmem : d ∈ (is.map (·.1.source)).eraseDups
  · rw [List.count_eq_one_of_mem (Text.nodup_eraseDups _) hmem] at h
    cases h with
    | cons hstep hrest =>
      cases hrest
      exact hstep
  · rw [List.count_eq_zero_of_not_mem hmem] at h
    have hnone : is.filter (·.1.source = d) = [] := by
      rw [List.filter_eq_nil_iff]
      intro i hi
      simp only [decide_eq_true_eq]
      rintro rfl
      exact hmem (List.mem_eraseDups.2 (List.mem_map_of_mem hi))
    cases h
    rw [hnone]
    rfl

end Imports

section Pulls

variable {s : Store} {o : Lexer.Origin} {markers : List Text} {lasting : List Block}

theorem pending_of_edited {qs : List Pull} {t out : Text}
    (hpending : Patch.Pending o markers lasting t (qs.map Pull.unplaced))
    (hmarkers : ∀ q ∈ qs, q.marker ∈ markers ∧ ∀ m ∈ markers, Marker.opening <+: m ∧ lf ∉ m ∧
      ¬ m <:+: Marker.pull q.path q.name true)
    (hplain : ∀ q ∈ qs, ∀ c, s.customFor? q = some c → c.body.Plain)
    (h : Edited (PullsIn s) qs t out) :
    Patch.Pending o markers lasting out [] := by
  induction h with
  | nil t => exact hpending
  | @cons q qs t u v step rest ih =>
    obtain ⟨c, hc, rfl⟩ := step
    rw [List.forall_mem_cons] at hmarkers hplain
    obtain ⟨out, hout, hpending⟩ := Patch.Pending.pull hpending hmarkers.1.1 hmarkers.1.2
      (hplain.1 c hc)
    have hout : Patch.pull? t q.marker q.path q.name c.body = some out := hout
    rw [hout] at ih
    exact ih hpending hmarkers.2 hplain.2

end Pulls

section Reading

variable {files : Files.Tree} {documents : List Document}

def textOf (files : Files.Tree) (d : Document) : Text := (files.read d.path).toOption.getD []

def lexedIn (files : Files.Tree) (d : Document) : Lexed := lex d.path d.relDir (textOf files d)

theorem fst_each_readDocument (files : Files.Tree) (log : List Log.Entry)
    (documents : List Document) :
    (each (readDocument files) log documents).1 =
      documents.map fun d => (readDocument files [] d).1 := by
  have hlog : ∀ log d, (readDocument files log d).1 = (readDocument files [] d).1 := by
    intro log d
    unfold readDocument
    cases files.read d.path <;> rfl
  induction documents generalizing log with
  | nil => rfl
  | cons d documents ih => rw [List.map_cons, ← ih, ← hlog log]; rfl

theorem readDocument_eq_ok {d : Document} {found : Lexed}
    (h : (readDocument files [] d).1 = .ok found) :
    files.read d.path = .ok (textOf files d) ∧ found.blocks = (lexedIn files d).blocks := by
  unfold readDocument at h
  unfold lexedIn textOf
  cases hread : files.read d.path with
  | error e => simp [hread] at h
  | ok content =>
    rw [hread] at h
    rw [← Except.ok.inj h]
    exact ⟨rfl, List.append_nil _⟩

theorem read_of_failures (h : failures (each (readDocument files) [] documents).1 = []) :
    ∀ d ∈ documents, files.read d.path = .ok (textOf files d) := by
  intro d hd
  rw [fst_each_readDocument, failures_eq_nil] at h
  obtain ⟨found, hfound⟩ := h _ (List.mem_map_of_mem hd)
  exact (readDocument_eq_ok hfound).1

theorem readDocument_of_read {d : Document} {text : Text} (h : files.read d.path = .ok text) :
    ∃ found, (readDocument files [] d).1 = .ok found := by
  unfold readDocument
  rw [h]
  exact ⟨_, rfl⟩

theorem blocks_blocksOf (h : ∀ d ∈ documents, files.read d.path = .ok (textOf files d)) :
    (blocksOf files documents).blocks = documents.flatMap fun d => (lexedIn files d).blocks := by
  rw [blocksOf, fst_each_readDocument]
  induction documents with
  | nil => rfl
  | cons d documents ih =>
    rw [List.forall_mem_cons] at h
    obtain ⟨found, hfound⟩ := readDocument_of_read h.1
    have hrest := ih h.2
    dsimp only at hrest ⊢
    rw [List.map_cons, hfound, successes_ok, List.flatMap_cons, List.flatMap_cons, hrest,
      (readDocument_eq_ok hfound).2]

theorem source_of_mem_lexedIn {d : Document} {b : Block} (h : b ∈ (lexedIn files d).blocks) :
    b.region.source = d.path :=
  source_of_mem_lex h

theorem filter_flatMap_documents {α : Type} {f : Document → List α} {source : α → Text}
    (hnodup : (documents.map (·.path)).Nodup)
    (hsource : ∀ d ∈ documents, ∀ a ∈ f d, source a = d.path) {d : Document} (hd : d ∈ documents) :
    (documents.flatMap f).filter (source · = d.path) = f d := by
  induction documents with
  | nil => cases hd
  | cons c documents ih =>
    rw [List.forall_mem_cons] at hsource
    rw [List.map_cons, List.nodup_cons] at hnodup
    rw [List.flatMap_cons, List.filter_append]
    rcases List.mem_cons.1 hd with rfl | hd
    · have hrest : (documents.flatMap f).filter (source · = d.path) = [] := by
        rw [List.filter_eq_nil_iff]
        intro a ha
        obtain ⟨c, hc, ha⟩ := List.mem_flatMap.1 ha
        simp only [decide_eq_true_eq, hsource.2 c hc a ha]
        intro heq
        exact hnodup.1 (heq ▸ List.mem_map_of_mem hc)
      rw [hrest, List.append_nil, List.filter_eq_self]
      intro a ha
      simp [hsource.1 a ha]
    · have hhere : (f c).filter (source · = d.path) = [] := by
        rw [List.filter_eq_nil_iff]
        intro a ha
        simp only [decide_eq_true_eq, hsource.1 a ha]
        intro heq
        exact hnodup.1 (heq ▸ List.mem_map_of_mem hd)
      rw [hhere, List.nil_append, ih hnodup.2 hsource.2 hd]

section Store

variable (h : ∀ d ∈ documents, files.read d.path = .ok (textOf files d))

include h

theorem imports_blocksOf : (blocksOf files documents).imports =
    documents.flatMap fun d => (lexedIn files d).store.imports := by
  rw [Store.imports, blocks_blocksOf h, List.filterMap_flatMap]
  rfl

theorem pulls_blocksOf : (blocksOf files documents).pulls =
    documents.flatMap fun d => (lexedIn files d).store.pulls := by
  rw [Store.pulls, blocks_blocksOf h, List.filterMap_flatMap]
  rfl

end Store

theorem source_of_mem_imports {d : Document} {i : Import}
    (h : i ∈ (lexedIn files d).store.imports) : i.source = d.path :=
  source_of_mem_lexedIn (Store.mem_imports.1 h)

theorem source_of_mem_pulls {d : Document} {q : Pull} (h : q ∈ (lexedIn files d).store.pulls) :
    q.source = d.path :=
  source_of_mem_lexedIn (Store.mem_pulls.1 h)

end Reading

structure Harmless (files : Files.Tree) (documents : List Document)
    (contents : List (Import × Text)) : Prop where
  plain_imports : ∀ c ∈ contents, c.2.Plain
  plain_pulls : ∀ q ∈ (blocksOf files documents).pulls,
    ∀ c ∈ (blocksOf files documents).customFor? q, c.body.Plain
  /-- A marker occurs only where it is read as a request, at the start of a line and alone on it. -/
  inPlace : ∀ d ∈ documents, ∀ q ∈ (lexedIn files d).store.pulls,
    q.InPlace (lexedIn files d).store.pulls (textOf files d)

instance (files : Files.Tree) (documents : List Document) (contents : List (Import × Text)) :
    Decidable (Harmless files documents contents) :=
  decidable_of_iff' (_ ∧ _ ∧ _) ⟨fun h => ⟨h.plain_imports, h.plain_pulls, h.inPlace⟩,
    fun h => ⟨h.1, h.2.1, h.2.2⟩⟩

def Unlike (files : Files.Tree) (documents : List Document) : Prop :=
  ∀ d ∈ documents, ∀ q ∈ (lexedIn files d).store.pulls, ∀ q' ∈ (lexedIn files d).store.pulls,
    ¬ q.marker <:+: Marker.pull q'.path q'.name true

instance (files : Files.Tree) (documents : List Document) : Decidable (Unlike files documents) :=
  inferInstanceAs (Decidable (∀ d ∈ documents, _))

section Answered

variable {p : Plan} {files : Files.Tree} {documents : List Document} {g : Progress p.store}

theorem Harmless.map_unplaced_lex {contents chosen : List (Import × Text)} {d : Document}
    {spliced text : Text} (h : Harmless files documents contents) (hunlike : Unlike files documents)
    (hread : ∀ d ∈ documents, files.read d.path = .ok (textOf files d)) (hd : d ∈ documents)
    (hchosen : chosen.map Prod.fst = (lexedIn files d).store.imports)
    (hcontents : ∀ c ∈ chosen, c ∈ contents)
    (hspliced : Patch.spliceImports (textOf files d) chosen = .ok spliced)
    (htext : Edited (PullsIn (blocksOf files documents)) (lexedIn files d).store.pulls spliced
      text) :
    (lex d.path d.relDir text).blocks.map Block.unplaced =
      ((lexedIn files d).blocks.map Block.unplaced).filter Block.lasts := by
  obtain ⟨out, hout, hpending⟩ := Patch.exists_pending hchosen
    (fun c hc => h.plain_imports c (hcontents c hc)) (h.inPlace d hd)
  obtain rfl : out = spliced := Except.ok.inj (hout.symm.trans hspliced)
  refine (pending_of_edited hpending (fun q hq => ⟨List.mem_map_of_mem hq, fun m hm => ?_⟩)
    (fun q hq => h.plain_pulls q ?_) htext).map_unplaced_lex
  · obtain ⟨q', hq', rfl⟩ := List.mem_map.1 hm
    obtain ⟨parts, houtline⟩ := Lexer.exists_outline (textOf files d).rawLines
    have hmem : q' ∈ (Lexer.gather ⟨d.path, d.relDir⟩ [] parts).store.pulls := by
      rw [← Lexer.lex_eq_gather d.path d.relDir houtline]
      exact hq'
    obtain ⟨hopening, -, hlf⟩ := Patch.of_mem_pulls houtline hmem
    exact ⟨hopening, hlf, hunlike d hd q' hq' q hq⟩
  · rw [pulls_blocksOf hread]
    exact List.mem_flatMap.2 ⟨d, hd, hq⟩

theorem answered (hdry : p.options.dryRun = false) (hstore : p.store = blocksOf files documents)
    (hread : ∀ d ∈ documents, files.read d.path = .ok (textOf files d))
    (hnodup : (documents.map (·.path)).Nodup) (hkeys : ∀ d ∈ documents, key d.path = d.path)
    {reading importing pulling} (hreading : each (readImport p) g p.store.imports = reading)
    (himporting : each (writeImports p) reading.2 (byDocument (successes reading.1)) = importing)
    (hpulling : each (writePull p) importing.2 p.store.pulls = pulling)
    (hreading_ok : failures reading.1 = []) (himporting_ok : failures importing.1 = [])
    (hpulling_ok : failures pulling.1 = [])
    (h : Harmless files documents (successes reading.1)) (hunlike : Unlike files documents) :
    Retexts (documents.map (·.path)) g.files pulling.2.files ∧
      ∀ d ∈ documents, ∀ e, g.files.get? d.path = some e → e.content = textOf files d →
        ∃ text, pulling.2.files.get? d.path = some { e with content := text } ∧
          (lex d.path d.relDir text).blocks.map Block.unplaced =
            ((lexedIn files d).blocks.map Block.unplaced).filter Block.lasts := by
  have himports : p.store.imports = documents.flatMap fun d => (lexedIn files d).store.imports :=
    hstore ▸ imports_blocksOf hread
  have hpulls : p.store.pulls = documents.flatMap fun d => (lexedIn files d).store.pulls :=
    hstore ▸ pulls_blocksOf hread
  subst hreading himporting hpulling
  obtain ⟨hfiles, hfst⟩ := each_readImport g p.store.imports
  have hfst := hfst hreading_ok
  obtain ⟨hretexts, hedited⟩ :=
    each_edits SplicesIn Prod.fst (writeImports_edits hdry) himporting_ok
  obtain ⟨hretexts', hedited'⟩ :=
    each_edits (PullsIn p.store) (·.source) (writePull_edits hdry) hpulling_ok
  rw [hfiles] at hretexts hedited
  have hsource : ∀ i ∈ successes (each (readImport p) g p.store.imports).1,
      i.1.source ∈ documents.map (·.path) := by
    intro i hi
    have hi : i.1 ∈ p.store.imports := hfst ▸ List.mem_map_of_mem hi
    rw [himports] at hi
    obtain ⟨d, hd, hi⟩ := List.mem_flatMap.1 hi
    exact source_of_mem_imports hi ▸ List.mem_map_of_mem hd
  have hsource' : ∀ q ∈ p.store.pulls, q.source ∈ documents.map (·.path) := by
    intro q hq
    rw [hpulls] at hq
    obtain ⟨d, hd, hq⟩ := List.mem_flatMap.1 hq
    exact source_of_mem_pulls hq ▸ List.mem_map_of_mem hd
  have hkey : ∀ source ∈ documents.map (·.path), key source = source := by
    intro source hsource
    obtain ⟨d, hd, rfl⟩ := List.mem_map.1 hsource
    exact hkeys d hd
  refine ⟨(hretexts.trans hretexts').mono ?_, fun d hd e he htext => ?_⟩
  · intro source hmem
    rcases List.mem_append.1 hmem with hmem | hmem
    · obtain ⟨group, hgroup, rfl⟩ := List.mem_map.1 hmem
      obtain ⟨source, hsources, rfl⟩ := List.mem_map.1 hgroup
      obtain ⟨i, hi, rfl⟩ := List.mem_map.1 (List.mem_eraseDups.1 hsources)
      exact hsource i hi
    · obtain ⟨q, hq, rfl⟩ := List.mem_map.1 hmem
      exact hsource' q hq
  · obtain ⟨spliced, hspliced, hget⟩ := hedited d.path e he
    obtain ⟨text, htext', hget'⟩ := hedited' d.path _ hget
    refine ⟨text, hget', ?_⟩
    rw [htext] at hspliced
    have hchosen := spliceImports_of_edited (fun i hi => hkey _ (hsource i hi)) (hkeys d hd) hspliced
    have hpulls' : (p.store.pulls.filter fun q => key q.source = key d.path) =
        (lexedIn files d).store.pulls := by
      have hfilter : (p.store.pulls.filter fun q => key q.source = key d.path) =
          p.store.pulls.filter (·.source = d.path) := by
        apply List.filter_congr
        intro q hq
        rw [hkey _ (hsource' q hq), hkeys d hd]
      rw [hfilter, hpulls, filter_flatMap_documents hnodup _ hd]
      exact fun c _ q hq => source_of_mem_pulls hq
    rw [hpulls', hstore] at htext'
    refine h.map_unplaced_lex hunlike hread hd ?_ (fun c hc => List.mem_of_mem_filter hc) hchosen
      htext'
    have hmap : ((successes (each (readImport p) g p.store.imports).1).filter
        (·.1.source = d.path)).map Prod.fst = p.store.imports.filter (·.source = d.path) := by
      conv_rhs => rw [← hfst, List.filter_map]
      rfl
    rw [hmap, himports, filter_flatMap_documents hnodup _ hd]
    exact fun c _ i hi => source_of_mem_imports hi

end Answered

end Run

end Tangle
