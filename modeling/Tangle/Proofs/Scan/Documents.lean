import Tangle.Proofs.Scan
import Tangle.Proofs.Text.Lines

namespace Tangle

open Text Files Files.Tree

namespace Scan

section Extension

variable {extension p : Text} {extensions : List Text}

def dotted (extension : Text) : Text :=
  if extension.startsWith "." then extension else "." ++ extension

/-- The path ends in one of the extensions. Case and blanks around them do not count, and where none
are given, there is one for Markdown. -/
def Matches (extensions : List Text) (p : Text) : Prop :=
  ∃ extension ∈ if extensions = [] then [ofString ".md"] else extensions,
    extension.trim.toLower ≠ [] ∧ dotted extension.trim.toLower <:+ p.toLower

theorem normalize?_eq (extension : Text) : normalize? extension =
    if extension.trim.toLower = [] then none else some (dotted extension.trim.toLower) := by
  have hdot : ofString "." = [46] := by decide
  unfold normalize?
  generalize extension.trim.toLower = e
  cases e with
  | nil => rfl
  | cons b rest =>
    by_cases hb : b = 46
    · simp [hb, dotted, hdot, startsWith, List.isPrefixOf]
    · simp [hb, dotted, hdot, startsWith, List.isPrefixOf, Ne.symm hb]

theorem hasExtension_iff :
    hasExtension (normalizeAll extensions) p = true ↔ Matches extensions p := by
  simp only [hasExtension, normalizeAll, List.any_eq_true, List.mem_filterMap, normalize?_eq,
    Matches, endsWith, List.isSuffixOf_iff_suffix, List.isEmpty_iff]
  constructor
  · rintro ⟨w, ⟨extension, hmem, hw⟩, hends⟩
    split at hw
    next => cases hw
    next hne => exact ⟨extension, hmem, hne, Option.some.inj hw ▸ hends⟩
  · rintro ⟨extension, hmem, hne, hends⟩
    exact ⟨_, ⟨extension, hmem, if_neg hne⟩, hends⟩

end Extension

section RelDir

variable {root p name : Text} {dirs : List Text}

theorem relDir_eq (hroot : Path.isAbsolute root = true) (hp : Path.isAbsolute p = true)
    (h : Path.components (Path.directory p) = Path.components root ++ dirs) :
    relDir root p = dirs.flatMap (· ++ [slash]) := by
  have hdirectory : Path.isAbsolute root = Path.isAbsolute (Path.directory p) :=
    hroot.trans (Path.isFull_directory hp).absolute.symm
  have hdirs := Path.isPart_of_components h
  rw [relDir, Path.relative?_eq_render hdirectory h]
  dsimp only
  cases dirs with
  | nil => rfl
  | cons dir dirs =>
    have hdot : Path.render false (dir :: dirs) ≠ "." := by
      intro heq
      have hparts : Path.parts (Path.render false (dir :: dirs)) = dir :: dirs := Path.parts_join hdirs
      have hone : Path.parts "." = [ofString "."] := by decide
      rw [heq, hone] at hparts
      exact (hdirs dir (List.mem_cons_self ..)).ne_dot (List.cons.inj hparts).1.symm
    rw [if_neg hdot]
    exact Path.join_append_slash (List.cons_ne_nil dir dirs)

theorem append_relDir (hroot : Path.isAbsolute root = true) (hp : Path.IsFull p)
    (h : Path.components p = Path.components root ++ dirs ++ [name]) :
    Path.append (Path.append root (relDir root p)) name = p := by
  have hne := Path.ne_nil_of_isAbsolute hroot
  have hname : Path.parts name = [name] :=
    Path.parts_of_isPart (Path.isPart_of_components h name (List.mem_singleton_self name))
  have hdirectory := Path.components_directory hp h
  have hdirs := Path.isPart_of_components hdirectory
  have hparts : Path.parts (relDir root p ++ name) = dirs ++ [name] := by
    rw [relDir_eq hroot hp.absolute hdirectory, Path.parts_flatMap_append hdirs, hname]
  have hsplit : Path.parts (relDir root p ++ name) =
      Path.parts (relDir root p) ++ Path.parts name := by
    rw [hparts, relDir_eq hroot hp.absolute hdirectory, Path.parts_flatMap hdirs, hname]
  calc
    Path.append (Path.append root (relDir root p)) name
      = Path.append root (relDir root p ++ name) := Path.append_append hne hsplit
    _ = Path.clean p := Path.append_eq_clean hne (hroot.trans hp.absolute.symm)
      (by rw [hparts, h, List.append_assoc])
    _ = p := hp.clean

theorem endsWith_flatMap (dirs : List Text) :
    dirs.flatMap (· ++ [slash]) = [] ∨
      Text.endsWith (dirs.flatMap (· ++ [slash])) [slash] = true := by
  obtain rfl | ⟨before, dir, rfl⟩ := List.eq_nil_or_concat dirs
  · exact .inl rfl
  · exact .inr (endsWith_iff.2 (by simp))

end RelDir

def Below (root p : Text) : Prop :=
  Path.isAbsolute p = true ∧ ∃ names, names ≠ [] ∧
    Path.components p = Path.components root ++ names

structure Finds (t : Files.Tree) (extensions : List Text) (root : Text)
    (documents : List Document) : Prop where
  increasing : (documents.map fun d => Path.components d.path).Pairwise (· < ·)
  mem_iff : ∀ p, p ∈ documents.map (·.path) ↔
    (∃ e, (p, e) ∈ t.entries ∧ e.isDirectory = false) ∧ Below root p ∧ Matches extensions p
  relDir : ∀ d ∈ documents, (d.relDir = [] ∨ d.relDir.endsWith [slash] = true) ∧
    ∃ dirs name, Path.components d.path = Path.components root ++ dirs ++ [name] ∧
      d.relDir = dirs.flatMap (· ++ [slash]) ∧
      Path.append (Path.append root d.relDir) name = d.path

def OnWay (t : Files.Tree) (root p : Text) : Prop :=
  p = root ∨ p ∈ t.entries.map (·.1) ∧ Below root p

/-- A step of the walk fails: the root is no directory, or a path cannot be looked at, or a
directory cannot be listed. -/
inductive Blocked (t : Files.Tree) (root : Text) : Prop
  | notDirectory (h : ¬ t.IsDirectory root)
  | status {p : Text} {e : Files.Error} (hp : OnWay t root p) (h : t.stat p = .error e)
  | listing {p : Text} {e : Files.Error} (hp : OnWay t root p) (hdir : t.IsDirectory p)
    (h : t.listing p = .error e)

section Found

variable {t : Files.Tree} {root p : Text} {extensions : List Text} {documents : List Document}

theorem mem_entriesBelow_iff (hroot : Path.isAbsolute root = true) (hsound : t.Sound) :
    (∃ names ∈ entriesBelow t root, pathTo root names = p) ↔
      p ∈ t.entries.map (·.1) ∧ Below root p := by
  constructor
  · rintro ⟨names, hnames, rfl⟩
    obtain ⟨q, hq, hbelow⟩ := mem_entriesBelow.1 hnames
    obtain ⟨habsolute, hne, hcomponents⟩ := (names?_eq_some hroot).1 hbelow
    rw [pathTo_of_names? hroot (hsound.key_eq q hq) hbelow]
    exact ⟨hq, habsolute, names, hne, hcomponents⟩
  · rintro ⟨hp, habsolute, names, hne, hcomponents⟩
    have hbelow := (names?_eq_some hroot).2 ⟨habsolute, hne, hcomponents⟩
    exact ⟨names, mem_entriesBelow.2 ⟨p, hp, hbelow⟩,
      pathTo_of_names? hroot (hsound.key_eq p hp) hbelow⟩

theorem isFull_of_mem (hsound : t.Sound) (hp : p ∈ t.entries.map (·.1))
    (habsolute : Path.isAbsolute p = true) : Path.IsFull p :=
  ⟨habsolute, by rw [← key_of_isAbsolute habsolute, hsound.key_eq p hp]⟩

theorem isFile_iff (hsound : t.Sound) (hp : p ∈ t.entries.map (·.1)) :
    isFile t p = true ↔ ∃ e, (p, e) ∈ t.entries ∧ e.isDirectory = false := by
  constructor
  · intro h
    obtain ⟨e, he, hfile⟩ := (Option.any_eq_true ..).1 h
    have hmem := mem_entries_of_get? he
    rw [hsound.key_eq p hp] at hmem
    exact ⟨e, hmem, by simpa using hfile⟩
  · rintro ⟨e, he, hfile⟩
    simp [isFile, hsound.get?_of_mem he, hfile]

theorem pairwise_components (hroot : Path.isAbsolute root = true) (hsound : t.Sound) :
    ((entriesBelow t root).map (pathTo root)).Pairwise
      fun p q => Path.components p < Path.components q := by
  have hcomponents : ∀ names ∈ entriesBelow t root,
      Path.components (pathTo root names) = Path.components root ++ names := by
    intro names hnames
    obtain ⟨q, hq, hbelow⟩ := mem_entriesBelow.1 hnames
    rw [pathTo_of_names? hroot (hsound.key_eq q hq) hbelow]
    exact ((names?_eq_some hroot).1 hbelow).2.2
  have hnodup : (entriesBelow t root).Nodup := (nodup_pathTo hroot hsound).of_map _
  rw [List.pairwise_map]
  refine ((pairwise_entriesBelow t root).and hnodup).imp_of_mem fun ha hb ⟨hle, hne⟩ => ?_
  rw [hcomponents _ ha, hcomponents _ hb]
  exact List.append_left_lt (List.not_le.1 fun hge => hne (List.le_antisymm hle hge))

theorem finds_of_scan (hsound : t.Sound) (hroot : Path.IsFull root)
    (h : scan t extensions root = .ok documents) : Finds t extensions root documents where
  increasing := by
    obtain ⟨-, -, -, rfl⟩ := scan_eq_ok.1 h
    rw [List.map_map, List.pairwise_map]
    exact (pairwise_components hroot.absolute hsound).filter _
  mem_iff p := by
    have hdocument : p ∈ documents.map (·.path) ↔
        (∃ names ∈ entriesBelow t root, pathTo root names = p) ∧
          hasExtension (normalizeAll extensions) p = true ∧ isFile t p = true := by
      rw [List.mem_map]
      constructor
      · rintro ⟨d, hd, rfl⟩
        exact ((mem_documents h).1 hd).2
      · intro hp
        exact ⟨⟨p, Scan.relDir root p⟩, (mem_documents h).2 ⟨rfl, hp⟩, rfl⟩
    rw [hdocument, mem_entriesBelow_iff hroot.absolute hsound, hasExtension_iff]
    constructor
    · rintro ⟨⟨hp, hbelow⟩, hmatches, hfile⟩
      exact ⟨(isFile_iff hsound hp).1 hfile, hbelow, hmatches⟩
    · rintro ⟨⟨e, he, hfile⟩, hbelow, hmatches⟩
      have hp : p ∈ t.entries.map (·.1) := List.mem_map_of_mem he
      exact ⟨⟨hp, hbelow⟩, hmatches, (isFile_iff hsound hp).2 ⟨e, he, hfile⟩⟩
  relDir d hd := by
    obtain ⟨hrel, hnames, -, -⟩ := (mem_documents h).1 hd
    obtain ⟨hp, habsolute, names, hne, hcomponents⟩ :=
      (mem_entriesBelow_iff hroot.absolute hsound).1 hnames
    have hfull := isFull_of_mem hsound hp habsolute
    obtain ⟨dirs, name, rfl⟩ := (List.eq_nil_or_concat names).resolve_left hne
    rw [List.concat_eq_append, ← List.append_assoc] at hcomponents
    have hspelled := relDir_eq hroot.absolute habsolute (Path.components_directory hfull hcomponents)
    rw [hrel]
    refine ⟨?_, dirs, name, hcomponents, hspelled, append_relDir hroot.absolute hfull hcomponents⟩
    rw [hspelled]
    exact endsWith_flatMap dirs

theorem exists_scan_iff (hsound : t.Sound) (hroot : Path.IsFull root) (extensions : List Text) :
    (∃ documents, scan t extensions root = .ok documents) ↔ ¬ Blocked t root := by
  constructor
  · rintro ⟨documents, h⟩ hblocked
    obtain ⟨⟨e, hstat, hdir⟩, hlisting, hvisible, -⟩ := scan_eq_ok.1 h
    have hway : ∀ p, OnWay t root p → Visible t p := by
      rintro p (rfl | hp)
      · exact ⟨e, hstat, fun _ => hlisting⟩
      · obtain ⟨names, hnames, rfl⟩ := (mem_entriesBelow_iff hroot.absolute hsound).2 hp
        exact hvisible names hnames
    cases hblocked with
    | notDirectory hnot => exact hnot ⟨e, (stat_eq_ok.1 hstat).2.1, hdir⟩
    | status hp herror =>
      obtain ⟨e', hok, -⟩ := hway _ hp
      rw [herror] at hok
      cases hok
    | listing hp hdirectory herror =>
      obtain ⟨e', hok, hlists⟩ := hway _ hp
      obtain ⟨e'', he'', hdir''⟩ := hdirectory
      obtain rfl := Option.some.inj (he''.symm.trans (stat_eq_ok.1 hok).2.1)
      rw [hlists hdir''] at herror
      cases herror
  · intro hfree
    have hway : ∀ p, OnWay t root p → Visible t p := by
      intro p hp
      cases hstat : t.stat p with
      | error e => exact absurd (.status hp hstat) hfree
      | ok e =>
        refine ⟨e, hstat, fun hdir => ?_⟩
        cases hlisting : t.listing p with
        | error e' => exact absurd (.listing hp ⟨e, (stat_eq_ok.1 hstat).2.1, hdir⟩ hlisting) hfree
        | ok u => rfl
    obtain ⟨e, hstat, hlists⟩ := hway root (.inl rfl)
    have hdir : e.isDirectory = true := by
      by_contra hnot
      refine hfree (.notDirectory ?_)
      rintro ⟨e', he', hdir'⟩
      obtain rfl := Option.some.inj (he'.symm.trans (stat_eq_ok.1 hstat).2.1)
      exact hnot hdir'
    refine ⟨_, scan_eq_ok.2 ⟨⟨e, hstat, hdir⟩, hlists hdir, fun names hnames => ?_, rfl⟩⟩
    exact hway _ (.inr ((mem_entriesBelow_iff hroot.absolute hsound).1 ⟨names, hnames, rfl⟩))

theorem not_blocked (hsound : t.Sound) (hroot : Path.isAbsolute root = true) (hdenied : t.denied = {})
    (hdir : t.IsDirectory root) : ¬ Blocked t root := by
  have hnone : ∀ p, Denials.covers [] p = false := fun _ => rfl
  have hway : ∀ p, OnWay t root p → ∃ e, t.stat p = .ok e := by
    intro p hp
    have hthere : Path.isAbsolute p = true ∧ ∃ e, t.get? p = some e := by
      rcases hp with rfl | ⟨hmem, habsolute, -⟩
      · exact ⟨hroot, hdir.imp fun _ he => he.1⟩
      · have hkey := hsound.key_eq p hmem
        exact ⟨habsolute, Option.isSome_iff_exists.1 ((isSome_get?_iff hkey).2 hmem)⟩
    obtain ⟨habsolute, e, he⟩ := hthere
    refine ⟨e, stat_of_grows (Grows.refl [] [] t) hsound.rooted he habsolute ?_⟩
    rw [hdenied]
    exact hnone p
  intro hblocked
  cases hblocked with
  | notDirectory hnot => exact hnot hdir
  | status hp herror =>
    obtain ⟨e, hok⟩ := hway _ hp
    rw [herror] at hok
    cases hok
  | @listing p _ _ _ herror =>
    have hok : t.listing p = .ok () := listing_eq_ok.2 (by rw [hdenied]; exact hnone p)
    rw [herror] at hok
    cases hok

/-- A scan finds what there is to find below a directory, and ends in a failure just if a step of
its walk fails. Where nothing is denied, none does. -/
theorem scan_finds (hsound : t.Sound) (hroot : Path.IsFull root) (extensions : List Text) :
    (∀ documents, scan t extensions root = .ok documents → Finds t extensions root documents) ∧
      ((∃ failure, scan t extensions root = .error failure) ↔ Blocked t root) ∧
      (t.denied = {} → t.IsDirectory root →
        ∃ documents, scan t extensions root = .ok documents ∧
          Finds t extensions root documents) := by
  refine ⟨fun documents => finds_of_scan hsound hroot, ?_, fun hdenied hdir => ?_⟩
  · have hends := exists_scan_iff hsound hroot extensions
    cases hscan : scan t extensions root with
    | error failure =>
      rw [hscan] at hends
      exact iff_of_true ⟨failure, rfl⟩ (not_not.1 (hends.not.1 (by simp)))
    | ok documents =>
      rw [hscan] at hends
      exact iff_of_false (by simp) (hends.1 ⟨documents, rfl⟩)
  · have hfree := not_blocked hsound hroot.absolute hdenied hdir
    obtain ⟨documents, hscan⟩ := (exists_scan_iff hsound hroot extensions).2 hfree
    exact ⟨documents, hscan, finds_of_scan hsound hroot hscan⟩

/-- A tree in which the paths as texts are in another order than the names that they go by. -/
def shelf : Files.Tree :=
  (((Tree.empty .memory).placeDirectory "/r/d.md").place "/r/b-c.md" (.file "x")).place
    "/r/b/A.MD" (.file "y")

def shelved : List Document := [⟨"/r/b/A.MD", "b/"⟩, ⟨"/r/b-c.md", []⟩]

theorem scan_finds_shelf :
    shelf.Sound ∧ Path.IsFull "/r" ∧ shelf.denied = {} ∧ shelf.IsDirectory "/r" ∧
      scan shelf [] "/r" = .ok shelved ∧ Finds shelf [] "/r" shelved := by
  have hsound : shelf.Sound :=
    (((Sound.empty .memory).placeDirectory rfl _).place (by decide) _ _).place (by decide) _ _
  have hroot : Path.IsFull "/r" := ⟨by decide, by decide⟩
  have hdir : shelf.IsDirectory "/r" := by decide +kernel
  have hscan : scan shelf [] "/r" = .ok shelved := by
    rw [scan_eq_insertionSort]
    decide +kernel
  obtain ⟨documents, hdocuments, hfinds⟩ := (scan_finds hsound hroot []).2.2 (by decide +kernel) hdir
  obtain rfl := Except.ok.inj (hscan.symm.trans hdocuments)
  exact ⟨hsound, hroot, by decide +kernel, hdir, hscan, hfinds⟩

end Found

end Scan

end Tangle
