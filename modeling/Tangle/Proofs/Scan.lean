import Mathlib.Data.List.Sort
import Tangle.Proofs.Files.Rewrite
import Tangle.Proofs.Path.Below
import Tangle.Proofs.Scan.Walk

namespace Tangle

open Text Files Files.Tree

theorem Files.key_of_isAbsolute {p : Text} (h : Path.isAbsolute p = true) :
    key p = Path.clean p := by
  have hne : ¬ (Path.clean p = "." ∨ Path.clean p = "..") := by
    rintro (heq | heq) <;>
    · rw [← Path.isAbsolute_clean, heq] at h
      exact absurd h (by decide)
  rw [key, if_neg hne]

namespace Scan

theorem below?_eq_some {lead parts rest : List Text} :
    below? lead parts = some rest ↔ parts = lead ++ rest := by
  induction lead generalizing parts with
  | nil => simp [below?, eq_comm]
  | cons a lead ih =>
    cases parts with
    | nil => simp [below?]
    | cons b parts =>
      simp only [below?]
      split
      next h => simp [h, ih]
      next h => simp [Ne.symm h]

def names? (root p : Text) : Option (List Text) :=
  if Path.isAbsolute p then
    (below? (Path.components (key root)) (Path.components p)).filter (· ≠ [])
  else none

def pathTo (root : Text) (names : List Text) : Text := Path.append root (join [slash] names)

theorem entriesBelow_eq (files : Files.Tree) (root : Text) :
    entriesBelow files root = ((files.entries.map (·.1)).filterMap (names? root)).mergeSort
      fun a b => decide (a ≤ b) := by
  rw [List.filterMap_map, ← depthFirst_eq_mergeSort]
  rfl

theorem mem_entriesBelow {files : Files.Tree} {root : Text} {names : List Text} :
    names ∈ entriesBelow files root ↔
      ∃ p ∈ files.entries.map (·.1), names? root p = some names := by
  rw [entriesBelow_eq, List.mem_mergeSort, List.mem_filterMap]

theorem pairwise_entriesBelow (files : Files.Tree) (root : Text) :
    (entriesBelow files root).Pairwise (· ≤ ·) :=
  pairwise_depthFirst _

section Path

variable {root p : Text} {names : List Text}

theorem names?_eq_some (hroot : Path.isAbsolute root = true) :
    names? root p = some names ↔ Path.isAbsolute p = true ∧ names ≠ [] ∧
      Path.components p = Path.components root ++ names := by
  unfold names?
  split
  next hp =>
    rw [Option.filter_eq_some_iff, key_of_isAbsolute hroot, Path.components_clean, below?_eq_some]
    simp [hp, and_comm]
  next hp => simp [hp]

theorem pathTo_of_names? (hroot : Path.isAbsolute root = true) (hkey : key p = p)
    (h : names? root p = some names) : pathTo root names = p := by
  obtain ⟨hp, -, hbelow⟩ := (names?_eq_some hroot).1 h
  have hparts : Path.parts (join [slash] names) = names :=
    Path.parts_join (Path.isPart_of_components hbelow)
  rw [← hparts] at hbelow
  rw [pathTo, Path.append_eq_clean (Path.ne_nil_of_isAbsolute hroot) (hroot.trans hp.symm) hbelow,
    ← key_of_isAbsolute hp, hkey]

theorem isAbsolute_of_names? (h : names? root p = some names) : Path.isAbsolute p = true := by
  unfold names? at h
  split at h
  next hp => exact hp
  next => cases h

end Path

section Walk

variable {files : Files.Tree} {root : Text}

def Visible (files : Files.Tree) (path : Text) : Prop :=
  ∃ e, files.stat path = .ok e ∧ (e.isDirectory = true → files.listing path = .ok ())

def isFile (files : Files.Tree) (path : Text) : Bool := (files.get? path).any (!·.isDirectory)

theorem visit_cons (names : List Text) (entries : List (List Text)) :
    visit files root (names :: entries) =
      match files.stat (pathTo root names) with
      | .error e => .error e
      | .ok entry =>
        if entry.isDirectory then
          match files.listing (pathTo root names) with
          | .error e => .error e
          | .ok () => visit files root entries
        else (visit files root entries).map (pathTo root names :: ·) :=
  rfl

theorem visit_eq_ok {entries : List (List Text)} {paths : List Text} :
    visit files root entries = .ok paths ↔
      (∀ names ∈ entries, Visible files (pathTo root names)) ∧
        paths = (entries.map (pathTo root)).filter (isFile files) := by
  induction entries generalizing paths with
  | nil => simp [visit, eq_comm]
  | cons names entries ih =>
    rw [List.forall_mem_cons, List.map_cons, visit_cons]
    cases hstat : files.stat (pathTo root names) with
    | error e => simp [Visible, hstat]
    | ok e =>
      have hget := (stat_eq_ok.1 hstat).2.1
      cases hdir : e.isDirectory with
      | true =>
        have hfile : isFile files (pathTo root names) = false := by simp [isFile, hget, hdir]
        cases hlisting : files.listing (pathTo root names) with
        | error e' => simp [Visible, hstat, hdir, hlisting]
        | ok u => simp [Visible, hstat, hdir, hlisting, hfile, ih]
      | false =>
        have hfile : isFile files (pathTo root names) = true := by simp [isFile, hget, hdir]
        rw [List.filter_cons_of_pos hfile]
        have hvisible : Visible files (pathTo root names) := ⟨e, hstat, by simp [hdir]⟩
        simp only [hdir, Bool.false_eq_true, if_false]
        constructor
        · intro h
          cases hrest : visit files root entries with
          | error e' => simp [hrest, Except.map] at h
          | ok more =>
            rw [hrest] at h
            obtain ⟨hall, hmore⟩ := ih.1 hrest
            exact ⟨⟨hvisible, hall⟩, hmore ▸ (Except.ok.inj h).symm⟩
        · rintro ⟨⟨-, hall⟩, rfl⟩
          rw [ih.2 ⟨hall, rfl⟩]
          rfl

/-- A scan in a form that can be evaluated, with the entries put in order one by one. -/
theorem scan_eq_insertionSort (files : Files.Tree) (extensions : List Text) (root : Text) :
    scan files extensions root =
      match files.stat root with
      | .error e => .error (.inputPath e)
      | .ok entry =>
        if entry.isDirectory then
          match files.listing root with
          | .error e => .error (.walk e)
          | .ok () =>
            match visit files root
              (((files.entries.map (·.1)).filterMap (names? root)).insertionSort (· ≤ ·)) with
            | .error e => .error (.walk e)
            | .ok paths => .ok ((paths.filter (hasExtension (normalizeAll extensions))).map fun p =>
                ⟨p, relDir root p⟩)
        else .error (.notDirectory root) := by
  have hsorted : entriesBelow files root =
      ((files.entries.map (·.1)).filterMap (names? root)).insertionSort (· ≤ ·) := by
    rw [entriesBelow_eq]
    exact List.mergeSort_eq_insertionSort ..
  unfold scan walk
  rw [hsorted]
  cases files.stat root with
  | error e => rfl
  | ok entry =>
    dsimp only
    split
    next => cases files.listing root <;> rfl
    next => rfl

theorem scan_eq_ok {extensions : List Text} {documents : List Document} :
    scan files extensions root = .ok documents ↔
      (∃ e, files.stat root = .ok e ∧ e.isDirectory = true) ∧ files.listing root = .ok () ∧
      (∀ names ∈ entriesBelow files root, Visible files (pathTo root names)) ∧
      documents = (((entriesBelow files root).map (pathTo root)).filter fun p =>
        hasExtension (normalizeAll extensions) p && isFile files p).map fun p =>
          ⟨p, relDir root p⟩ := by
  unfold scan walk
  cases hstat : files.stat root with
  | error e => simp
  | ok e =>
    cases hdir : e.isDirectory with
    | false => simp [hdir]
    | true =>
      cases hlisting : files.listing root with
      | error e' => simp [hdir]
      | ok u =>
        simp only [hdir, if_true, Except.ok.injEq, exists_eq_left', true_and]
        cases hvisit : visit files root (entriesBelow files root) with
        | error e' =>
          have hnot : ¬ ∀ names ∈ entriesBelow files root, Visible files (pathTo root names) := by
            intro hall
            simp [visit_eq_ok.2 ⟨hall, rfl⟩] at hvisit
          simp [hnot]
        | ok paths =>
          obtain ⟨hall, rfl⟩ := visit_eq_ok.1 hvisit
          simp only [List.filter_filter, Except.ok.injEq]
          exact ⟨fun h => ⟨hall, h.symm⟩, fun h => h.2.symm⟩

end Walk

section Again

variable {t t' : Files.Tree} {written dirs extensions : List Text} {root : Text}
  {documents : List Document}

theorem mem_documents (h : scan t extensions root = .ok documents) {d : Document} :
    d ∈ documents ↔ d.relDir = relDir root d.path ∧
      (∃ names ∈ entriesBelow t root, pathTo root names = d.path) ∧
      hasExtension (normalizeAll extensions) d.path = true ∧ isFile t d.path = true := by
  obtain ⟨-, -, -, rfl⟩ := scan_eq_ok.1 h
  simp only [List.mem_map, List.mem_filter, Bool.and_eq_true]
  constructor
  · rintro ⟨p, ⟨hp, hdocument⟩, rfl⟩
    exact ⟨rfl, hp, hdocument⟩
  · rintro ⟨hrel, hp, hdocument⟩
    exact ⟨d.path, ⟨hp, hdocument⟩, by rw [← hrel]⟩

theorem of_mem_scan (hroot : Path.isAbsolute root = true) (hsound : t.Sound)
    (h : scan t extensions root = .ok documents) {d : Document} (hd : d ∈ documents) :
    key d.path = d.path ∧ Path.isAbsolute d.path = true ∧ isFile t d.path = true := by
  obtain ⟨-, ⟨names, hnames, hpath⟩, -, hfile⟩ := (mem_documents h).1 hd
  obtain ⟨p, hp, hbelow⟩ := mem_entriesBelow.1 hnames
  have hkey := hsound.key_eq p hp
  rw [pathTo_of_names? hroot hkey hbelow] at hpath
  rw [← hpath] at hfile ⊢
  exact ⟨hkey, isAbsolute_of_names? hbelow, hfile⟩

theorem nodup_pathTo (hroot : Path.isAbsolute root = true) (hsound : t.Sound) :
    ((entriesBelow t root).map (pathTo root)).Nodup := by
  have hpaths : ((t.entries.map (·.1)).filterMap (names? root)).map (pathTo root) =
      (t.entries.map (·.1)).filter fun p => (names? root p).isSome := by
    rw [List.map_filterMap, ← List.filterMap_eq_filter]
    apply List.filterMap_congr
    intro p hp
    cases hnames : names? root p with
    | none => simp [Option.guard, hnames]
    | some names =>
      rw [Option.map_some, pathTo_of_names? hroot (hsound.key_eq p hp) hnames]
      simp [Option.guard, hnames]
  have hperm : ((entriesBelow t root).map (pathTo root)).Perm
      ((t.entries.map (·.1)).filter fun p => (names? root p).isSome) := by
    rw [← hpaths, entriesBelow_eq]
    exact (List.mergeSort_perm _ _).map _
  exact hperm.nodup_iff.2 (hsound.nodup.sublist List.filter_sublist)

theorem nodup_documents (hroot : Path.isAbsolute root = true) (hsound : t.Sound)
    (h : scan t extensions root = .ok documents) : (documents.map (·.path)).Nodup := by
  obtain ⟨-, -, -, rfl⟩ := scan_eq_ok.1 h
  rw [List.map_map]
  exact (List.map_id _).symm ▸ (nodup_pathTo hroot hsound).sublist List.filter_sublist

theorem filter_entriesBelow {f f' : List Text → Bool} {new : List Text}
    (hkeys : t'.entries.map (·.1) = t.entries.map (·.1) ++ new)
    (hold : ∀ names ∈ entriesBelow t root, f' names = f names)
    (hnew : ∀ p ∈ new, ∀ names, names? root p = some names → f' names = false) :
    (entriesBelow t' root).filter f' = (entriesBelow t root).filter f := by
  have hnone : (new.filterMap (names? root)).filter f' = [] := by
    rw [List.filter_eq_nil_iff]
    intro names hnames
    obtain ⟨p, hp, hbelow⟩ := List.mem_filterMap.1 hnames
    simp [hnew p hp names hbelow]
  have hperm : ((entriesBelow t' root).filter f').Perm ((entriesBelow t root).filter f) := by
    calc (entriesBelow t' root).filter f'
      _ |>.Perm (((t'.entries.map (·.1)).filterMap (names? root)).filter f') := by
        rw [entriesBelow_eq]
        exact (List.mergeSort_perm _ _).filter _
      _ = ((t.entries.map (·.1)).filterMap (names? root)).filter f' := by
        rw [hkeys, List.filterMap_append, List.filter_append, hnone, List.append_nil]
      _ |>.Perm ((entriesBelow t root).filter f') := by
        rw [entriesBelow_eq]
        exact (List.mergeSort_perm _ _).symm.filter _
      _ = (entriesBelow t root).filter f := List.filter_congr hold
  exact hperm.eq_of_pairwise (fun _ _ _ _ => List.le_antisymm)
    ((pairwise_entriesBelow t' root).filter _) ((pairwise_entriesBelow t root).filter _)

/-- All that is new below the root may be looked at, and new directories may be listed. -/
def Accessible (root : Text) (t t' : Files.Tree) : Prop :=
  ∀ x ∈ t'.entries, (names? root x.1).isSome = true →
    (t.get? x.1 = none → Denials.covers t.denied.stat x.1 = false) ∧
    (t'.IsDirectory x.1 → ¬ t.IsDirectory x.1 → Denials.covers t.denied.read x.1 = false)

instance (root : Text) (t t' : Files.Tree) : Decidable (Accessible root t t') :=
  inferInstanceAs (Decidable (∀ x ∈ t'.entries, _))

variable (hroot : Path.isAbsolute root = true) (hsound : t.Sound)
  (hgrows : Grows written dirs t t')

include hsound hgrows in
theorem key_eq_of_grows {p : Text} (hp : p ∈ t'.entries.map (·.1)) : key p = p := by
  obtain ⟨new, hkeys, hfresh⟩ := hgrows.keys
  rw [hkeys, List.mem_append] at hp
  exact hp.elim (hsound.key_eq p) fun hp => (hfresh p hp).1

include hgrows in
theorem stat_of_grows (hrooted : t'.medium = .disk → t'.Rooted) {p : Text} {e : Entry}
    (he : t'.get? p = some e) (hp : Path.isAbsolute p = true)
    (hdenied : Denials.covers t.denied.stat p = false) : t'.stat p = .ok e := by
  refine stat_eq_ok.2 ⟨hgrows.denied_eq ▸ hdenied, he, fun hmedium => ?_⟩
  refine (hrooted hmedium).obstacle?_eq_none he fun hdots => ?_
  rw [← Path.isAbsolute_clean, hdots] at hp
  cases hp

include hgrows in
theorem listing_of_grows {p : Text} (hp : Denials.covers t.denied.read p = false) :
    t'.listing p = .ok () := by
  rwa [listing_eq_ok, hgrows.denied_eq]

include hroot hsound hgrows

theorem visible_of_grows (hrooted : t'.medium = .disk → t'.Rooted)
    (haccessible : Accessible root t t')
    (hold : ∀ names ∈ entriesBelow t root, Visible t (pathTo root names)) {names : List Text}
    (hnames : names ∈ entriesBelow t' root) : Visible t' (pathTo root names) := by
  obtain ⟨p, hp, hbelow⟩ := mem_entriesBelow.1 hnames
  have hkey := key_eq_of_grows hsound hgrows hp
  have habsolute := isAbsolute_of_names? hbelow
  obtain ⟨x, hx, rfl⟩ := List.mem_map.1 hp
  obtain ⟨hunseen, hunlisted⟩ := haccessible x hx (by simp [hbelow])
  obtain ⟨e', he'⟩ := Option.isSome_iff_exists.1 ((isSome_get?_iff hkey).2 hp)
  have hpath : pathTo root names = x.1 := pathTo_of_names? hroot hkey hbelow
  cases hget : t.get? x.1 with
  | none =>
    rw [hpath]
    refine ⟨e', stat_of_grows hgrows hrooted he' habsolute (hunseen hget), fun hdir => ?_⟩
    refine listing_of_grows hgrows (hunlisted ⟨e', he', hdir⟩ ?_)
    rintro ⟨e, he, -⟩
    simp [hget] at he
  | some e =>
    have hmem := (isSome_get?_iff (t := t) hkey).1 (by simp [hget])
    obtain ⟨e₀, hstat, hlisting⟩ := hold names (mem_entriesBelow.2 ⟨x.1, hmem, hbelow⟩)
    rw [hpath] at hstat hlisting ⊢
    obtain ⟨hdenied, he, -⟩ := stat_eq_ok.1 hstat
    refine ⟨e', stat_of_grows hgrows hrooted he' habsolute hdenied, fun hdir => ?_⟩
    apply listing_of_grows hgrows
    by_cases hdir₀ : e₀.isDirectory = true
    · exact listing_eq_ok.1 (hlisting hdir₀)
    · refine hunlisted ⟨e', he', hdir⟩ ?_
      rintro ⟨e₁, he₁, hdir₁⟩
      rw [Option.some.inj (he₁.symm.trans he)] at hdir₁
      exact hdir₀ hdir₁

theorem scan_of_grows (hrooted : t'.medium = .disk → t'.Rooted)
    (haccessible : Accessible root t t') (h : scan t extensions root = .ok documents)
    (hfiles : ∀ d ∈ documents, isFile t' d.path = true)
    (hnew : ∀ found, scan t' extensions root = .ok found → ∀ d ∈ found, t.get? d.path = none →
      Spared written d.path) :
    scan t' extensions root = .ok documents := by
  obtain ⟨⟨e, hstat, hdir⟩, hlisting, hold, hdocuments⟩ := scan_eq_ok.1 h
  obtain ⟨hdenied, he, -⟩ := stat_eq_ok.1 hstat
  obtain ⟨e', he', hdir'⟩ := hgrows.isDirectory ⟨e, he, hdir⟩
  obtain ⟨new, hkeys, hfresh⟩ := hgrows.keys
  have hscan : ∃ found, scan t' extensions root = .ok found :=
    ⟨_, scan_eq_ok.2 ⟨⟨e', stat_of_grows hgrows hrooted he' hroot hdenied, hdir'⟩,
      listing_of_grows hgrows (listing_eq_ok.1 hlisting),
      fun names => visible_of_grows hroot hsound hgrows hrooted haccessible hold, rfl⟩⟩
  obtain ⟨found, hfound⟩ := hscan
  have hspared := hnew found hfound
  have hfound' := (scan_eq_ok.1 hfound).2.2.2
  rw [hfound, hfound', hdocuments, List.filter_map, List.filter_map]
  congr 3
  refine filter_entriesBelow hkeys (fun names hnames => ?_) (fun p hp names hbelow => ?_)
  · -- A document is still a file, and a directory has not become one.
    obtain ⟨p, hp, hbelow⟩ := mem_entriesBelow.1 hnames
    have hkey := hsound.key_eq p hp
    simp only [Function.comp_apply, pathTo_of_names? hroot hkey hbelow]
    cases hextension : hasExtension (normalizeAll extensions) p with
    | false => rfl
    | true =>
      simp only [Bool.true_and]
      cases hfile : isFile t p with
      | true =>
        refine hfiles ⟨p, relDir root p⟩ ((mem_documents h).2 ⟨rfl, ⟨names, hnames, ?_⟩, ?_⟩)
        · exact pathTo_of_names? hroot hkey hbelow
        · exact ⟨hextension, hfile⟩
      | false =>
        obtain ⟨e, he⟩ := Option.isSome_iff_exists.1 ((isSome_get?_iff hkey).2 hp)
        have hdir : e.isDirectory = true := by simpa [isFile, he] using hfile
        obtain ⟨e', he', hdir'⟩ := hgrows.isDirectory ⟨e, he, hdir⟩
        simp [isFile, he', hdir']
  · -- A new file was written, and those are no documents.
    obtain ⟨hkey, hnone⟩ := hfresh p hp
    have hnames : names ∈ entriesBelow t' root :=
      mem_entriesBelow.2 ⟨p, by simp [hkeys, hp], hbelow⟩
    rw [Function.comp_apply, pathTo_of_names? hroot hkey hbelow, Bool.and_eq_false_iff]
    by_contra hdocument
    simp only [not_or, Bool.not_eq_false] at hdocument
    have hspared := hspared ⟨p, relDir root p⟩ ((mem_documents hfound).2 ⟨rfl, ⟨names, hnames,
      pathTo_of_names? hroot hkey hbelow⟩, hdocument⟩) hnone
    rcases hgrows.added p hspared hnone with hnone' | ⟨-, hdir⟩
    · simp [isFile, hnone'] at hdocument
    · simp [isFile, hdir, Entry.directory] at hdocument

end Again

end Scan

end Tangle
