import Mathlib.Data.List.Nodup
import Tangle.Proofs.Files.Growth

namespace Tangle

open Text

namespace Path

theorem clean_render {rooted : Bool} {cs : List Text} (h : Settled rooted cs.reverse) :
    clean (render rooted cs) = render rooted cs := by
  rw [clean, isAbsolute_render h, components_render h]

theorem Settled.take {rooted : Bool} {cs : List Text} (h : Settled rooted cs.reverse) (n : Nat) :
    Settled rooted (cs.take n).reverse := by
  have happend : cs.reverse = (cs.drop n).reverse ++ (cs.take n).reverse := by
    rw [← List.reverse_append, List.take_append_drop]
  exact (happend ▸ h).of_append

end Path

namespace Files

/-- Directories, nearest first, each in all that come after it. The root may come more than once. -/
def Nested : List Text → Prop
  | [] => True
  | dir :: rest => ancestors dir ⊆ rest ∧ rest ⊆ dir :: ancestors dir ∧
      (dir ∈ rest → ancestors dir = []) ∧ Nested rest

theorem ancestors_render {rooted : Bool} {cs : List Text} (h : Path.Settled rooted cs.reverse) :
    ancestors (Path.render rooted cs) =
      (List.range cs.length).reverse.map fun n => key (Path.render rooted (cs.take n)) := by
  simp [ancestors, Path.components_render h, Path.isAbsolute_render h]

theorem length_components_key (p : Text) :
    (Path.components (key p)).length ≤ (Path.components p).length := by
  unfold key
  dsimp only
  split
  next => simp [Path.components, Path.parts, split]
  next => rw [Path.components_clean]

theorem nested_range {rooted : Bool} {cs : List Text} (h : Path.Settled rooted cs.reverse)
    {n : Nat} (hn : n ≤ cs.length) :
    Nested ((List.range n).reverse.map fun m => key (Path.render rooted (cs.take m))) := by
  induction n with
  | zero => exact trivial
  | succ n ih =>
    have hrest := ih (by omega)
    have htake : Path.Settled rooted (cs.take n).reverse := h.take n
    have hlist : (List.range (n + 1)).reverse.map (fun m => key (Path.render rooted (cs.take m))) =
        key (Path.render rooted (cs.take n)) ::
          (List.range n).reverse.map fun m => key (Path.render rooted (cs.take m)) := by
      simp [List.range_succ]
    have hcomponents : Path.components (Path.render rooted (cs.take n)) = cs.take n :=
      Path.components_render htake
    have hlength : (cs.take n).length = n := by simp; omega
    rw [hlist]
    by_cases hroot : Path.render rooted (cs.take n) = "." ∨ Path.render rooted (cs.take n) = ".."
    · -- Only the root comes after a directory at or above the start of a relative path.
      have hkey : key (Path.render rooted (cs.take n)) = [slash] := by
        rw [key, Path.clean_render htake, if_pos hroot]
      have hnone : ancestors [slash] = [] := by decide
      rw [hkey, Nested, hnone]
      refine ⟨List.nil_subset _, fun dir hdir => ?_, fun _ => rfl, hrest⟩
      obtain ⟨m, hm, rfl⟩ := List.mem_map.1 hdir
      have hm : m < n := by simpa using hm
      have hle : n ≤ 1 := by
        rw [← hlength, ← hcomponents]
        rcases hroot with hroot | hroot <;> rw [hroot] <;> decide
      obtain rfl : m = 0 := by omega
      cases rooted with
      | true => exact List.mem_singleton_self _
      | false => exact List.mem_singleton_self _
    · have hkey : key (Path.render rooted (cs.take n)) = Path.render rooted (cs.take n) := by
        rw [key, Path.clean_render htake, if_neg hroot]
      have hancestors : ancestors (Path.render rooted (cs.take n)) =
          (List.range n).reverse.map fun m => key (Path.render rooted (cs.take m)) := by
        rw [ancestors_render htake, hlength]
        apply List.map_congr_left
        intro m hm
        have hm : m < n := by simpa using hm
        rw [List.take_take, Nat.min_eq_left hm.le]
      rw [hkey, Nested, hancestors]
      refine ⟨List.Subset.refl _, List.subset_cons_self _ _, fun hmem => ?_, hrest⟩
      obtain ⟨m, hm, heq⟩ := List.mem_map.1 hmem
      have hm : m < n := by simpa using hm
      have hshort := length_components_key (Path.render rooted (cs.take m))
      rw [heq, hcomponents, Path.components_render (h.take m), hlength] at hshort
      simp at hshort
      omega

theorem nested_ancestors (p : Text) : Nested (ancestors p) :=
  nested_range (Path.settled_components p) le_rfl

theorem ancestors_key_subset (p : Text) : ancestors (key p) ⊆ ancestors p := by
  by_cases hdots : Path.clean p = ".."
  · have hnone : ancestors [slash] = [] := by decide
    rw [key, hdots, if_pos (.inr rfl), hnone]
    exact List.nil_subset _
  · rw [ancestors_key hdots]
    exact List.Subset.refl _

theorem ancestors_key_of_mem {p : Text} (h : key p ∈ ancestors p) : ancestors (key p) = [] := by
  obtain ⟨n, hn, hkey⟩ := mem_ancestors.1 h
  have hshort := length_components_key
    (Path.render (Path.isAbsolute p) ((Path.components p).take n))
  rw [← hkey, Path.components_render ((Path.settled_components p).take n), List.length_take] at hshort
  unfold key at hshort ⊢
  dsimp only at hshort ⊢
  split
  next => decide
  next hroot =>
    rw [if_neg hroot, Path.components_clean] at hshort
    omega

namespace Tree

variable {t t' t'' : Tree} {written later dirs : List Text} {p q content : Text} {e : Entry}

def IsDirectory (t : Tree) (p : Text) : Prop := ∃ e, t.get? p = some e ∧ e.isDirectory = true

instance (t : Tree) (p : Text) : Decidable (t.IsDirectory p) :=
  decidable_of_iff ((t.get? p).any (·.isDirectory) = true) (Option.any_eq_true ..)

theorem rooted_iff : t.Rooted ↔ ∀ x ∈ t.entries, ∀ dir ∈ ancestors x.1, t.IsDirectory dir := by
  unfold Rooted IsDirectory
  simp only [Option.any_eq_true]

theorem Grows.isDirectory (h : Grows written dirs t t') (hp : t.IsDirectory p) :
    t'.IsDirectory p := by
  obtain ⟨e, he, hdir⟩ := hp
  obtain ⟨e', he', hsame⟩ := h.shape p e he
  exact ⟨e', he', (hsame (.inr hdir)).trans hdir⟩

theorem mem_entries_of_get? (h : t.get? p = some e) : (key p, e) ∈ t.entries := by
  obtain ⟨before, after, hentries, -⟩ := List.lookup_eq_some_iff.1 h
  simp [hentries]

theorem isDirectory_set_of_ne (h : t.IsDirectory q) (hnone : t.get? p = none) :
    (t.set p e).IsDirectory q := by
  obtain ⟨d, hd, hdir⟩ := h
  refine ⟨d, ?_, hdir⟩
  rw [get?_set, if_neg, hd]
  intro hkey
  rw [get?, hkey, ← get?, hnone] at hd
  cases hd

theorem mem_entries_set {x : Text × Entry} (h : x ∈ (t.set p e).entries) :
    x = (key p, e) ∨ x ∈ t.entries := by
  have hset : ∀ (es : List (Text × Entry)) k, x ∈ setEntry k e es → x = (k, e) ∨ x ∈ es := by
    intro es k
    induction es with
    | nil => simp [setEntry]
    | cons y es ih =>
      obtain ⟨q, f⟩ := y
      simp only [setEntry]
      split <;> grind
  exact hset _ _ h

theorem rooted_adopt (hnested : Nested dirs) (hclear : ∀ dir ∈ dirs, ∀ e, t.get? dir = some e →
      e.isDirectory = true ∧ ∀ d ∈ ancestors dir, t.IsDirectory d)
    (hkeys : ∀ dir ∈ dirs, key dir = dir)
    (h : ∀ x ∈ t.entries, ∀ dir ∈ ancestors x.1, t.IsDirectory dir ∨ dir ∈ dirs) :
    (t.adopt dirs).Rooted := by
  induction dirs generalizing t with
  | nil => exact rooted_iff.2 fun x hx dir hdir => (h x hx dir hdir).resolve_right (by simp)
  | cons dir dirs ih =>
    obtain ⟨hsub, hsup, hself, hnested⟩ := hnested
    simp only [adopt]
    split
    next e he =>
      obtain ⟨hdir, habove⟩ := hclear dir (List.mem_cons_self ..) e he
      rw [if_pos hdir]
      refine rooted_iff.2 fun x hx d hd => ?_
      rcases h x hx d hd with hd | hd
      · exact hd
      · have hd : d ∈ dir :: ancestors dir := by
          rcases List.mem_cons.1 hd with rfl | hd
          · exact List.mem_cons_self ..
          · exact hsup hd
        rcases List.mem_cons.1 hd with rfl | hd
        · exact ⟨e, he, hdir⟩
        · exact habove d hd
    next hnone =>
      refine ih hnested (fun d hd e he => ?_) (fun d hd => hkeys d (List.mem_cons_of_mem _ hd)) ?_
      · rw [get?_set] at he
        split at he
        next hkey =>
          obtain rfl := Option.some.inj he
          rw [hkeys d (List.mem_cons_of_mem _ hd), hkeys dir (List.mem_cons_self ..)] at hkey
          subst hkey
          simp [hself hd, Entry.directory]
        next =>
          obtain ⟨hdir, habove⟩ := hclear d (List.mem_cons_of_mem _ hd) e he
          exact ⟨hdir, fun d hd => isDirectory_set_of_ne (habove d hd) hnone⟩
      · intro x hx d hd
        rcases mem_entries_set hx with rfl | hx
        · rw [hkeys dir (List.mem_cons_self ..)] at hd
          exact .inr (hsub hd)
        · rcases h x hx d hd with hd | hd
          · exact .inl (isDirectory_set_of_ne hd hnone)
          rcases List.mem_cons.1 hd with rfl | hd
          · exact .inl ⟨.directory, get?_set_self .., rfl⟩
          · exact .inr hd

theorem Rooted.isDirectory (h : t.Rooted) (he : t.get? p = some e) {dir : Text}
    (hdir : dir ∈ ancestors (key p)) : t.IsDirectory dir :=
  rooted_iff.1 h _ (mem_entries_of_get? he) dir hdir

theorem Rooted.placeDirectory (h : t.Rooted) (hobstacle : t.obstacle? p = none) :
    (t.placeDirectory p).Rooted := by
  unfold Tree.placeDirectory
  split
  next => exact h
  next hnone =>
    have hkeys : ∀ dir ∈ ancestors p, key dir = dir := fun dir => key_of_mem_ancestors
    refine rooted_adopt (nested_ancestors p) (fun dir hdir e he => ?_) hkeys ?_
    · rw [get?_set] at he
      split at he
      next hkey =>
        obtain rfl := Option.some.inj he
        rw [hkeys dir hdir] at hkey
        subst hkey
        simp [ancestors_key_of_mem hdir, Entry.directory]
      next =>
        have hdirectory := List.find?_eq_none.1 hobstacle dir hdir
        refine ⟨by simpa [he] using hdirectory, fun d hd => ?_⟩
        rw [← hkeys dir hdir] at hd
        exact isDirectory_set_of_ne (h.isDirectory he hd) hnone
    · intro x hx dir hdir
      rcases mem_entries_set hx with rfl | hx
      · exact .inr (ancestors_key_subset p hdir)
      · exact .inl (isDirectory_set_of_ne (rooted_iff.1 h x hx dir hdir) hnone)

structure Sound (t : Tree) : Prop where
  nodup : (t.entries.map (·.1)).Nodup
  key_eq : ∀ p ∈ t.entries.map (·.1), key p = p
  rooted : t.medium = .disk → t.Rooted

theorem isSome_get?_iff (hkey : key p = p) :
    (t.get? p).isSome = true ↔ p ∈ t.entries.map (·.1) := by
  rw [get?, hkey, List.lookup_isSome_iff, List.mem_map]
  simp only [beq_iff_eq, eq_comm (a := p)]

namespace Sound

theorem get?_of_mem (h : t.Sound) (hmem : (p, e) ∈ t.entries) : t.get? p = some e := by
  have hp : p ∈ t.entries.map (·.1) := List.mem_map_of_mem hmem
  have hkey := h.key_eq p hp
  obtain ⟨e', he'⟩ := Option.isSome_iff_exists.1 ((isSome_get?_iff hkey).2 hp)
  have hmem' := mem_entries_of_get? he'
  rw [hkey] at hmem'
  have heq : (p, e) = (p, e') := List.inj_on_of_nodup_map h.nodup hmem hmem' rfl
  rw [he', (Prod.mk.inj heq).2]

theorem empty (medium : Medium) : (Tree.empty medium).Sound where
  nodup := List.nodup_singleton _
  key_eq p hp := by
    obtain rfl := List.mem_singleton.1 hp
    decide
  rooted _ x hx dir hdir := by
    have hnone : ancestors [slash] = [] := by decide
    obtain rfl := List.mem_singleton.1 hx
    rw [hnone] at hdir
    cases hdir

theorem set (h : t.Sound) (hmedium : t.medium = .memory) (p : Text) (e : Entry) :
    (t.set p e).Sound := by
  have hkeys : (t.set p e).entries.map (·.1) =
      if (t.get? p).isSome then t.entries.map (·.1) else t.entries.map (·.1) ++ [key p] :=
    map_setEntry (key p) e t.entries
  refine ⟨?_, fun q hq => ?_, fun hdisk => absurd (hmedium.symm.trans hdisk) (by decide)⟩
  · rw [hkeys]
    split
    next => exact h.nodup
    next hnone =>
      have hp : key p ∉ t.entries.map (·.1) := by
        rw [← isSome_get?_iff (key_key p)]
        rwa [get?, key_key]
      exact List.nodup_append.2 ⟨h.nodup, List.nodup_singleton _, by grind⟩
  · rw [hkeys] at hq
    split at hq
    next => exact h.key_eq q hq
    next =>
      rcases List.mem_append.1 hq with hq | hq
      · exact h.key_eq q hq
      · rw [List.mem_singleton.1 hq, key_key]

theorem adopt (h : t.Sound) (hmedium : t.medium = .memory) (dirs : List Text) :
    (t.adopt dirs).Sound := by
  induction dirs generalizing t with
  | nil => exact h
  | cons dir dirs ih =>
    unfold Tree.adopt
    split
    next e he =>
      split
      next => exact h
      next => exact h.set hmedium dir _
    next => exact ih (h.set hmedium dir _) hmedium

theorem place (h : t.Sound) (hmedium : t.medium = .memory) (p : Text) (e : Entry) :
    (t.place p e).Sound := by
  unfold Tree.place
  split
  next => exact h.set hmedium p _
  next => exact (h.set hmedium p e).adopt hmedium _

theorem placeDirectory (h : t.Sound) (hmedium : t.medium = .memory) (p : Text) :
    (t.placeDirectory p).Sound := by
  unfold Tree.placeDirectory
  split
  next => exact h
  next => exact (h.set hmedium p _).adopt hmedium _

end Sound

/-- What may become of a tree when only texts change, and those only in `written`. -/
structure Retexts (written : List Text) (t t' : Tree) : Prop where
  medium_eq : t'.medium = t.medium
  denied_eq : t'.denied = t.denied
  keys_eq : t'.entries.map (·.1) = t.entries.map (·.1)
  kept : ∀ q, Spared written q → t'.get? q = t.get? q
  shape : ∀ q, (t'.get? q).map (·.isDirectory) = (t.get? q).map (·.isDirectory)

namespace Retexts

theorem refl (written : List Text) (t : Tree) : Retexts written t t where
  medium_eq := rfl
  denied_eq := rfl
  keys_eq := rfl
  kept _ _ := rfl
  shape _ := rfl

theorem trans (h : Retexts written t t') (h' : Retexts later t' t'') :
    Retexts (written ++ later) t t'' where
  medium_eq := h'.medium_eq.trans h.medium_eq
  denied_eq := h'.denied_eq.trans h.denied_eq
  keys_eq := h'.keys_eq.trans h.keys_eq
  kept q hq := (h'.kept q hq.append.2).trans (h.kept q hq.append.1)
  shape q := (h'.shape q).trans (h.shape q)

theorem set (he : t.get? p = some e) (content : Text) :
    Retexts [p] t (t.set p { e with content }) where
  medium_eq := rfl
  denied_eq := rfl
  keys_eq := by
    have hlookup : (t.entries.lookup (key p)).isSome = true := Option.isSome_iff_exists.2 ⟨e, he⟩
    rw [Tree.set, map_setEntry, if_pos hlookup]
  kept q hq := by
    rw [get?_set, if_neg]
    exact fun hkey => hq p (List.mem_singleton_self p) hkey.symm
  shape q := by
    rw [get?_set]
    split
    next hkey =>
      have hq : t.get? q = some e := by rw [get?, hkey, ← get?, he]
      simp [hq]
    next => rfl

theorem mono (h : Retexts written t t') (hsub : written ⊆ later) : Retexts later t t' :=
  { h with kept := fun q hq => h.kept q fun w hw => hq w (hsub hw) }

theorem grows (h : Retexts written t t') : Grows written [] t t' where
  medium_eq := h.medium_eq
  denied_eq := h.denied_eq
  keys := ⟨[], by simp [h.keys_eq]⟩
  kept q e hq he := .inl ((h.kept q hq).trans he)
  added q hq hnone := .inl ((h.kept q hq).trans hnone)
  shape q e he := by
    have hshape := h.shape q
    rw [he, Option.map_some, Option.map_eq_some_iff] at hshape
    obtain ⟨e', he', hsame⟩ := hshape
    exact ⟨e', he', fun _ => hsame⟩

theorem rooted (h : Retexts written t t') (hrooted : t.Rooted) : t'.Rooted := by
  refine rooted_iff.2 fun x hx dir hdir => ?_
  have hx : x.1 ∈ t.entries.map (·.1) := h.keys_eq ▸ List.mem_map_of_mem hx
  obtain ⟨y, hy, hkey⟩ := List.mem_map.1 hx
  rw [← hkey] at hdir
  exact h.grows.isDirectory (rooted_iff.1 hrooted y hy dir hdir)

end Retexts

theorem write_of_get? (he : t.get? p = some e) (h : t.write p content = .ok t') :
    t' = t.set p { e with content } := by
  simp [eq_place_of_write h, place, he, Entry.file]

theorem Rooted.write (h : t.Rooted) (hmedium : t.medium = .disk)
    (hwrite : t.write p content = .ok t') : t'.Rooted := by
  cases hget : t.get? p with
  | some e =>
    rw [write_of_get? hget hwrite]
    exact (Retexts.set hget content).rooted h
  | none =>
    obtain ⟨hobstacle, ⟨e, he, -⟩ | ⟨-, dir, d, hhead, hd⟩⟩ := of_write_disk hmedium hwrite
    · simp [hget] at he
    · obtain ⟨dirs, hdirs⟩ := List.head?_eq_some_iff.1 hhead
      have hclear := clear_of_obstacle? fun _ => hobstacle
      have hnested := nested_ancestors p
      have hkey : key dir = dir := key_of_mem_ancestors (p := p) (by simp [hdirs])
      rw [eq_place_of_write hwrite, place, hget]
      dsimp only
      have habove : ∀ a ∈ ancestors p, t.IsDirectory a := by
        intro a ha
        rw [hdirs] at hnested ha hclear
        have ha : a ∈ dir :: ancestors dir := by
          rcases List.mem_cons.1 ha with rfl | ha
          · exact List.mem_cons_self ..
          · exact hnested.2.1 ha
        rcases List.mem_cons.1 ha with rfl | ha
        · exact ⟨d, hd, hclear hmedium a (List.mem_cons_self ..) d hd⟩
        · exact h.isDirectory hd (hkey.symm ▸ ha)
      have hadopt : (t.set p (.file content)).adopt (ancestors p) = t.set p (.file content) := by
        rw [hdirs] at hclear ⊢
        exact adopt_set_of_head hclear hmedium hget hd
      rw [hadopt]
      refine rooted_iff.2 fun x hx a ha => ?_
      rcases mem_entries_set hx with rfl | hx
      · exact isDirectory_set_of_ne (habove a (ancestors_key_subset p ha)) hget
      · exact isDirectory_set_of_ne (rooted_iff.1 h x hx a ha) hget

theorem isDirectory_placeDirectory (hnone : t.get? p = none)
    (h : t.medium = .disk → t.obstacle? p = none) : (t.placeDirectory p).IsDirectory p := by
  unfold Tree.placeDirectory
  rw [hnone]
  exact (grows_adopt ((clear_of_obstacle? h).set fun _ _ => rfl)).isDirectory
    ⟨.directory, get?_set_self .., rfl⟩

theorem of_makeDirectory (h : t.makeDirectory p = .ok t') :
    Denials.covers t.denied.mkdir p = false ∧
      (∃ d, t'.get? p = some d ∧ (t.medium = .disk → d.isDirectory = true)) ∧
      (t.medium = .disk → t.Rooted → t'.Rooted) := by
  unfold makeDirectory at h
  split at h
  next => simp at h
  next hdenied =>
    refine ⟨by simpa using hdenied, ?_⟩
    split at h
    next hmedium =>
      obtain rfl := Except.ok.inj h
      simp only [hmedium, reduceCtorEq, false_implies, and_true]
      cases hget : t.get? p with
      | some d => exact ⟨d, by simp [placeDirectory, hget]⟩
      | none =>
        obtain ⟨d, hd, -⟩ := isDirectory_placeDirectory hget fun hdisk => by simp [hmedium] at hdisk
        exact ⟨d, hd⟩
    next =>
      split at h
      next => simp at h
      next e _ he =>
        split at h
        next hdir =>
          obtain rfl := Except.ok.inj h
          exact ⟨⟨e, he, fun _ => hdir⟩, fun _ hrooted => hrooted⟩
        next => simp at h
      next hobstacle hnone =>
        obtain rfl := Except.ok.inj h
        obtain ⟨d, hd, hdir⟩ := isDirectory_placeDirectory hnone fun _ => hobstacle
        exact ⟨⟨d, hd, fun _ => hdir⟩, fun _ hrooted => hrooted.placeDirectory hobstacle⟩

theorem of_write (h : t.write p content = .ok t') :
    Denials.covers t.denied.write p = false ∧ ∃ e, t'.get? p = some e ∧
      (t.medium = .disk → e.isDirectory = false ∧ Path.clean p ≠ "..") := by
  constructor
  · unfold Tree.write at h
    split at h
    next => simp at h
    next hdenied => simpa using hdenied
  · cases hmedium : t.medium with
    | memory =>
      obtain ⟨-, e, he, -⟩ := grows_write h
      exact ⟨e, he, by simp⟩
    | disk =>
      obtain ⟨hobstacle, hthere⟩ := of_write_disk hmedium h
      have hdots : Path.clean p ≠ ".." := by
        intro hdots
        have hancestors : ancestors p = [[slash]] := by
          rw [← ancestors_clean p, hdots]
          decide
        have hroot : t.get? p = t.get? [slash] := by
          rw [get?, ← key_clean p, hdots]
          rfl
        rw [hroot, hancestors] at hthere
        rw [obstacle?, hancestors] at hobstacle
        rcases hthere with ⟨e, he, hfile⟩ | ⟨hnone, dir, d, hhead, hd⟩
        · simp [he, hfile] at hobstacle
        · obtain rfl : [slash] = dir := by simpa using hhead
          simp [hnone] at hd
      rcases hthere with ⟨e, he, hfile⟩ | ⟨hnone, dir, d, hhead, hd⟩
      · rw [write_of_get? he h]
        exact ⟨_, get?_set_self .., fun _ => ⟨hfile, hdots⟩⟩
      · obtain ⟨dirs, hdirs⟩ := List.head?_eq_some_iff.1 hhead
        have hclear := clear_of_obstacle? fun _ => hobstacle
        rw [hdirs] at hclear
        rw [eq_place_of_write h, place, hnone]
        dsimp only
        rw [hdirs, adopt_set_of_head hclear hmedium hnone hd]
        exact ⟨_, get?_set_self .., fun _ => ⟨rfl, hdots⟩⟩

structure Writable (t : Tree) (path : Text) : Prop where
  mkdir : Denials.covers t.denied.mkdir (Path.directory path) = false
  write : Denials.covers t.denied.write path = false
  directory : ∃ d, t.get? (Path.directory path) = some d ∧
    (t.medium = .disk → d.isDirectory = true)
  file : ∃ e, t.get? path = some e ∧
    (t.medium = .disk → e.isDirectory = false ∧ Path.clean path ≠ "..")

namespace Writable

theorem of_write (hmake : t.makeDirectory (Path.directory p) = .ok t')
    (hwrite : t'.write p content = .ok t'') : t''.Writable p := by
  have hgrows := grows_makeDirectory hmake
  obtain ⟨hmkdir, ⟨d, hd, hdir⟩, -⟩ := of_makeDirectory hmake
  obtain ⟨hdenied, hfile⟩ := Tree.of_write hwrite
  obtain ⟨hwritten, -⟩ := grows_write hwrite
  obtain ⟨d', hd', hsame⟩ := hwritten.shape _ d hd
  refine ⟨?_, ?_, ⟨d', hd', fun hmedium => ?_⟩, ?_⟩
  · rwa [hwritten.denied_eq, hgrows.denied_eq]
  · rwa [hwritten.denied_eq]
  · rw [hwritten.medium_eq] at hmedium
    rw [hsame (.inl hmedium), hdir (hgrows.medium_eq.symm.trans hmedium)]
  · rwa [hwritten.medium_eq]

theorem grows (h : t.Writable p) (hgrows : Grows written dirs t t') : t'.Writable p := by
  obtain ⟨d, hd, hdir⟩ := h.directory
  obtain ⟨e, he, hfile⟩ := h.file
  obtain ⟨d', hd', hsame⟩ := hgrows.shape _ d hd
  obtain ⟨e', he', hsame'⟩ := hgrows.shape _ e he
  refine ⟨hgrows.denied_eq ▸ h.mkdir, hgrows.denied_eq ▸ h.write, ⟨d', hd', fun hmedium => ?_⟩,
    ⟨e', he', fun hmedium => ?_⟩⟩
  · rw [hgrows.medium_eq] at hmedium
    rw [hsame (.inl hmedium), hdir hmedium]
  · rw [hgrows.medium_eq] at hmedium
    rw [hsame' (.inl hmedium)]
    exact hfile hmedium

end Writable

theorem Rooted.obstacle?_eq_none (h : t.Rooted) (he : t.get? q = some e)
    (hdots : Path.clean q = ".." → e.isDirectory = true) : t.obstacle? q = none := by
  by_cases hq : Path.clean q = ".."
  · obtain ⟨hkey, hancestors⟩ := of_clean_eq_dots hq
    have hroot : t.get? [slash] = some e := by rw [← hkey, get?, key_key, ← get?, he]
    simp [obstacle?, hancestors, hroot, hdots hq]
  · exact (Grows.refl [] [] t).obstacle?_eq_none h he hq

namespace Writable

variable (h : t.Writable p) (hrooted : t.medium = .disk → t.Rooted)

include h hrooted

theorem makeDirectory_eq : t.makeDirectory (Path.directory p) = .ok t := by
  obtain ⟨d, hd, hdir⟩ := h.directory
  unfold makeDirectory
  rw [h.mkdir]
  cases hmedium : t.medium with
  | memory => simp [placeDirectory, hd]
  | disk =>
    have hobstacle := (hrooted hmedium).obstacle?_eq_none hd fun _ => hdir hmedium
    simp [hobstacle, hd, hdir hmedium]

theorem write_eq (he : t.get? p = some e) (content : Text) :
    t.write p content = .ok (t.set p { e with content }) := by
  have hplace : t.place p (.file content) = t.set p { e with content } := by
    simp [place, he, Entry.file]
  unfold Tree.write
  rw [h.write, hplace]
  cases hmedium : t.medium with
  | memory => rfl
  | disk =>
    obtain ⟨e', he', hfile⟩ := h.file
    obtain rfl := Option.some.inj (he.symm.trans he')
    obtain ⟨hfile, hdots⟩ := hfile hmedium
    have hobstacle := (hrooted hmedium).obstacle?_eq_none he fun heq => absurd heq hdots
    simp [onDisk_eq_ok.2 ⟨hobstacle, he⟩, hfile]

end Writable

end Tree

end Files

end Tangle
