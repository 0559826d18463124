import Tangle.Proofs.Files.Tree
import Tangle.Proofs.Path

namespace Tangle.Files

open Text

section Key

variable {p q : Text}

@[simp] theorem key_clean (p : Text) : key (Path.clean p) = key p := by
  simp [key]

@[simp] theorem key_key (p : Text) : key (key p) = key p := by
  unfold key
  dsimp only
  split
  next => decide
  next h => rw [Path.clean_clean, if_neg h]

theorem ancestors_clean (p : Text) : ancestors (Path.clean p) = ancestors p := by
  simp [ancestors]

theorem ancestors_key (h : Path.clean p ≠ "..") : ancestors (key p) = ancestors p := by
  unfold key
  dsimp only
  split
  next hroot =>
    have hdot : Path.clean p = "." := hroot.resolve_right h
    rw [← ancestors_clean p, hdot]
    decide
  next => exact ancestors_clean p

theorem mem_ancestors {dir : Text} : dir ∈ ancestors p ↔
    ∃ n < (Path.components p).length,
      dir = key (Path.render (Path.isAbsolute p) ((Path.components p).take n)) := by
  simp [ancestors, eq_comm]

theorem key_of_mem_ancestors {dir : Text} (h : dir ∈ ancestors p) : key dir = dir := by
  obtain ⟨n, -, rfl⟩ := mem_ancestors.1 h
  exact key_key _

theorem of_clean_eq_dots (h : Path.clean p = "..") : key p = [slash] ∧ ancestors p = [[slash]] := by
  rw [← key_clean p, ← ancestors_clean p, h]
  decide

end Key

def directoriesFor (path : Text) : List Text :=
  Path.directory path :: (ancestors (Path.directory path) ++ ancestors path)

namespace Tree

def Rooted (t : Tree) : Prop :=
  ∀ x ∈ t.entries, ∀ dir ∈ ancestors x.1, (t.get? dir).any (·.isDirectory) = true

instance (t : Tree) : Decidable t.Rooted := inferInstanceAs (Decidable (∀ x ∈ t.entries, _))

/-- None of these paths leads to the entry that `p` leads to. -/
def Spared (written : List Text) (p : Text) : Prop := ∀ w ∈ written, key w ≠ key p

instance (written : List Text) (p : Text) : Decidable (Spared written p) :=
  inferInstanceAs (Decidable (∀ w ∈ written, _))

theorem Spared.append {ps qs : List Text} {q : Text} (h : Spared (ps ++ qs) q) :
    Spared ps q ∧ Spared qs q :=
  ⟨fun w hw => h w (List.mem_append_left _ hw), fun w hw => h w (List.mem_append_right _ hw)⟩

theorem Spared.append_left {ps : List Text} {q : Text} (h : ¬ Spared ps q) (qs : List Text) :
    ¬ Spared (ps ++ qs) q :=
  fun hq => h hq.append.1

theorem Spared.append_right {qs : List Text} {q : Text} (h : ¬ Spared qs q) (ps : List Text) :
    ¬ Spared (ps ++ qs) q :=
  fun hq => h hq.append.2

/-- What may become of a tree when no files but `written` are written and no directories but `dirs`
are made. -/
structure Grows (written dirs : List Text) (t t' : Tree) : Prop where
  medium_eq : t'.medium = t.medium
  denied_eq : t'.denied = t.denied
  keys : ∃ new, t'.entries.map (·.1) = t.entries.map (·.1) ++ new ∧
    ∀ k ∈ new, key k = k ∧ t.get? k = none
  kept : ∀ q e, Spared written q → t.get? q = some e → t'.get? q = some e ∨
    t.medium = .memory ∧ ¬ Spared dirs q ∧ t'.get? q = some { e with isDirectory := true }
  added : ∀ q, Spared written q → t.get? q = none →
    t'.get? q = none ∨ ¬ Spared dirs q ∧ t'.get? q = some .directory
  shape : ∀ q e, t.get? q = some e → ∃ e', t'.get? q = some e' ∧
    (t.medium = .disk ∨ e.isDirectory = true → e'.isDirectory = e.isDirectory)

variable {t t' t'' : Tree} {written later dirs dirs' : List Text} {p q content : Text}
  {e old : Entry}

theorem Grows.refl (written dirs : List Text) (t : Tree) : Grows written dirs t t where
  medium_eq := rfl
  denied_eq := rfl
  keys := ⟨[], by simp⟩
  kept _ _ _ h := .inl h
  added _ _ h := .inl h
  shape _ e h := ⟨e, h, fun _ => rfl⟩

theorem Grows.present (h : Grows written dirs t t') (hq : (t.get? q).isSome = true) :
    (t'.get? q).isSome = true := by
  obtain ⟨e, he⟩ := Option.isSome_iff_exists.1 hq
  obtain ⟨e', he', -⟩ := h.shape q e he
  simp [he']

theorem Grows.trans (h : Grows written dirs t t') (h' : Grows later dirs' t' t'') :
    Grows (written ++ later) (dirs ++ dirs') t t'' where
  medium_eq := h'.medium_eq.trans h.medium_eq
  denied_eq := h'.denied_eq.trans h.denied_eq
  keys := by
    obtain ⟨new, hkeys, hnew⟩ := h.keys
    obtain ⟨new', hkeys', hnew'⟩ := h'.keys
    refine ⟨new ++ new', by simp [hkeys', hkeys], fun k hk => ?_⟩
    rcases List.mem_append.1 hk with hk | hk
    · exact hnew k hk
    · obtain ⟨hkey, hnone⟩ := hnew' k hk
      refine ⟨hkey, ?_⟩
      cases hget : t.get? k with
      | none => rfl
      | some e =>
        have hsome := h.present (q := k) (by simp [hget])
        simp [hnone] at hsome
  kept q e hq he := by
    rcases h.kept q e hq.append.1 he with he | ⟨hmedium, hdirs, he⟩
    · rw [← h.medium_eq]
      rcases h'.kept q e hq.append.2 he with he | ⟨hmedium, hdirs, he⟩
      · exact .inl he
      · exact .inr ⟨hmedium, Spared.append_right hdirs _, he⟩
    · have hdirs := Spared.append_left hdirs dirs'
      rcases h'.kept q _ hq.append.2 he with he | ⟨-, -, he⟩ <;> exact .inr ⟨hmedium, hdirs, he⟩
  added q hq hnone := by
    rcases h.added q hq.append.1 hnone with hnone | ⟨hdirs, hdir⟩
    · rcases h'.added q hq.append.2 hnone with hnone | ⟨hdirs, hdir⟩
      · exact .inl hnone
      · exact .inr ⟨Spared.append_right hdirs _, hdir⟩
    · have hdirs := Spared.append_left hdirs dirs'
      rcases h'.kept q _ hq.append.2 hdir with hdir | ⟨-, -, hdir⟩ <;> exact .inr ⟨hdirs, hdir⟩
  shape q e he := by
    obtain ⟨e', he', hsame⟩ := h.shape q e he
    obtain ⟨e'', he'', hsame'⟩ := h'.shape q e' he'
    refine ⟨e'', he'', fun hfixed => ?_⟩
    rw [← hsame hfixed]
    refine hsame' (hfixed.imp h.medium_eq.trans fun hdir => ?_)
    rw [hsame hfixed, hdir]

theorem map_setEntry (p : Text) (e : Entry) (es : List (Text × Entry)) :
    (setEntry p e es).map (·.1) =
      if (es.lookup p).isSome then es.map (·.1) else es.map (·.1) ++ [p] := by
  induction es with
  | nil => rfl
  | cons x es ih =>
    obtain ⟨q, f⟩ := x
    simp only [setEntry]
    split
    next h => simp [h]
    next h =>
      have hlookup : ((q, f) :: es).lookup p = es.lookup p := by
        simp [List.lookup_cons, beq_false_of_ne (Ne.symm h)]
      rw [List.map_cons, ih, hlookup]
      split <;> simp

theorem Grows.set (hkept : Spared written p → ∀ old, t.get? p = some old → e = old ∨
      t.medium = .memory ∧ ¬ Spared dirs p ∧ e = { old with isDirectory := true })
    (hadded : Spared written p → t.get? p = none → ¬ Spared dirs p ∧ e = .directory)
    (hshape : ∀ old, t.get? p = some old → t.medium = .disk ∨ old.isDirectory = true →
      e.isDirectory = old.isDirectory) :
    Grows written dirs t (t.set p e) where
  medium_eq := rfl
  denied_eq := rfl
  keys := by
    simp only [Tree.set, map_setEntry]
    split
    next => exact ⟨[], by simp⟩
    next h =>
      refine ⟨[key p], rfl, fun k hk => ?_⟩
      obtain rfl := List.mem_singleton.1 hk
      exact ⟨key_key p, by rwa [get?, key_key, ← Option.not_isSome_iff_eq_none]⟩
  kept q f hq hf := by
    rw [get?_set]
    split
    next hkey =>
      have hp : t.get? p = some f := by rwa [get?, ← hkey]
      rcases hkept (fun w hw => hkey ▸ hq w hw) f hp with rfl | ⟨hmedium, hdirs, rfl⟩
      · exact .inl rfl
      · exact .inr ⟨hmedium, fun hq => hdirs fun w hw => hkey ▸ hq w hw, rfl⟩
    next => exact .inl hf
  added q hq hnone := by
    rw [get?_set]
    split
    next hkey =>
      have hp : t.get? p = none := by rwa [get?, ← hkey]
      obtain ⟨hdirs, rfl⟩ := hadded (fun w hw => hkey ▸ hq w hw) hp
      exact .inr ⟨fun hq => hdirs fun w hw => hkey ▸ hq w hw, rfl⟩
    next => exact .inl hnone
  shape q f hf := by
    rw [get?_set]
    split
    next hkey =>
      have hp : t.get? p = some f := by rwa [get?, ← hkey]
      exact ⟨e, rfl, hshape f hp⟩
    next => exact ⟨f, hf, fun _ => rfl⟩

/-- On a disk nothing is put below a file. -/
def Clear (t : Tree) (dirs : List Text) : Prop :=
  t.medium = .disk → ∀ dir ∈ dirs, ∀ e, t.get? dir = some e → e.isDirectory = true

theorem clear_of_obstacle? (h : t.medium = .disk → t.obstacle? p = none) :
    t.Clear (ancestors p) := by
  intro hmedium dir hdir e he
  have := List.find?_eq_none.1 (h hmedium) dir hdir
  simpa [he] using this

theorem Clear.set {dirs : List Text} (h : t.Clear dirs)
    (he : t.medium = .disk → key p ∈ dirs.map key → e.isDirectory = true) :
    (t.set p e).Clear dirs := by
  intro hmedium dir hdir f hf
  rw [get?_set] at hf
  split at hf
  next hkey =>
    obtain rfl := Option.some.inj hf
    exact he hmedium (List.mem_map.2 ⟨dir, hdir, hkey⟩)
  next => exact h hmedium dir hdir f hf

theorem not_spared_of_mem (h : p ∈ dirs) : ¬ Spared dirs p := fun hp => hp p h rfl

theorem grows_set_directory (hnone : t.get? p = none) (hp : p ∈ dirs) :
    Grows [] dirs t (t.set p .directory) :=
  .set (fun _ old hold => by simp [hnone] at hold) (fun _ _ => ⟨not_spared_of_mem hp, rfl⟩)
    (fun old hold => by simp [hnone] at hold)

theorem Grows.mono {more : List Text} (h : Grows written dirs t t') (hwritten : written ⊆ later)
    (hsub : dirs ⊆ more) : Grows later more t t' where
  medium_eq := h.medium_eq
  denied_eq := h.denied_eq
  keys := h.keys
  kept q e hq he := by
    rcases h.kept q e (fun w hw => hq w (hwritten hw)) he with he | ⟨hmedium, hdirs, he⟩
    · exact .inl he
    · exact .inr ⟨hmedium, fun hmore => hdirs fun w hw => hmore w (hsub hw), he⟩
  added q hq hnone := by
    rcases h.added q (fun w hw => hq w (hwritten hw)) hnone with hnone | ⟨hdirs, hdir⟩
    · exact .inl hnone
    · exact .inr ⟨fun hmore => hdirs fun w hw => hmore w (hsub hw), hdir⟩
  shape := h.shape

theorem grows_adopt (h : t.Clear dirs) : Grows [] dirs t (t.adopt dirs) := by
  induction dirs generalizing t with
  | nil => exact .refl ..
  | cons dir dirs ih =>
    simp only [adopt]
    split
    next e he =>
      split
      next => exact .refl ..
      next hfile =>
        have hmemory : t.medium = .memory := by
          cases hmedium : t.medium with
          | memory => rfl
          | disk => exact absurd (h hmedium dir (List.mem_cons_self ..) e he) hfile
        have hdir := not_spared_of_mem (List.mem_cons_self (a := dir) (l := dirs))
        refine .set (fun _ old hold => .inr ⟨hmemory, hdir, ?_⟩) (fun _ hnone => ?_)
          (fun old hold hfixed => ?_)
        · rw [Option.some.inj (hold.symm.trans he)]
        · simp [he] at hnone
        · simp only [hmemory, reduceCtorEq, false_or] at hfixed
          exact hfixed.symm
    next hnone =>
      have hset := grows_set_directory hnone (List.mem_singleton_self dir)
      have hclear : t.Clear dirs := fun hmedium d hd => h hmedium d (List.mem_cons_of_mem _ hd)
      exact hset.trans (ih (hclear.set fun _ _ => rfl))

theorem grows_placeDirectory (h : t.medium = .disk → t.obstacle? p = none) :
    Grows [] (p :: ancestors p) t (t.placeDirectory p) := by
  unfold placeDirectory
  split
  next => exact .refl ..
  next hnone =>
    have hset := grows_set_directory hnone (List.mem_singleton_self p)
    exact hset.trans (grows_adopt ((clear_of_obstacle? h).set fun _ _ => rfl))

theorem grows_makeDirectory (h : t.makeDirectory p = .ok t') :
    Grows [] (p :: ancestors p) t t' := by
  unfold makeDirectory at h
  split at h
  next => simp at h
  next =>
    split at h
    next hmedium =>
      obtain rfl := Except.ok.inj h
      exact grows_placeDirectory fun hdisk => by simp [hmedium] at hdisk
    next =>
      split at h
      next => simp at h
      next =>
        split at h
        next =>
          obtain rfl := Except.ok.inj h
          exact .refl ..
        next => simp at h
      next hobstacle _ =>
        obtain rfl := Except.ok.inj h
        exact grows_placeDirectory fun _ => hobstacle

theorem of_write_disk (hmedium : t.medium = .disk) (h : t.write p content = .ok t') :
    t.obstacle? p = none ∧ ((∃ e, t.get? p = some e ∧ e.isDirectory = false) ∨
      t.get? p = none ∧ ∃ dir e, (ancestors p).head? = some dir ∧ t.get? dir = some e) := by
  unfold write at h
  split at h
  next => simp at h
  next =>
    simp only [hmedium] at h
    split at h
    next e he =>
      obtain ⟨hobstacle, hget⟩ := onDisk_eq_ok.1 he
      split at h
      next => simp at h
      next hfile => exact ⟨hobstacle, .inl ⟨e, hget, by simpa using hfile⟩⟩
    next e he =>
      split at h
      next hparent =>
        obtain ⟨hreason, hparent⟩ := hparent
        obtain ⟨d, hd⟩ := Option.isSome_iff_exists.1 hparent
        obtain ⟨dir, hdir, hd⟩ := Option.bind_eq_some_iff.1 hd
        unfold onDisk at he
        split at he
        next =>
          obtain rfl := Except.error.inj he
          cases hreason
        next hobstacle =>
          split at he
          next => cases he
          next hnone => exact ⟨hobstacle, .inr ⟨hnone, dir, d, hdir, hd⟩⟩
      next => simp at h

theorem adopt_set_of_head {dir : Text} {dirs : List Text} (hclear : t.Clear (dir :: dirs))
    (hmedium : t.medium = .disk) (hnone : t.get? p = none) (hdir : t.get? dir = some old) :
    (t.set p e).adopt (dir :: dirs) = t.set p e := by
  have hkey : key dir ≠ key p := by
    intro hkey
    rw [get?, hkey, ← get?, hnone] at hdir
    cases hdir
  simp only [adopt, get?_set, if_neg hkey, hdir]
  rw [if_pos (hclear hmedium dir (List.mem_cons_self ..) old hdir)]

theorem grows_write (h : t.write p content = .ok t') :
    Grows [p] (ancestors p) t t' ∧ ∃ e, t'.get? p = some e ∧ e.content = content := by
  have hnot : ¬ Spared [p] p := fun hp => hp p (List.mem_singleton_self p) rfl
  rw [eq_place_of_write h, place]
  cases hget : t.get? p with
  | some old =>
    refine ⟨.set (fun hp => absurd hp hnot) (fun hp => absurd hp hnot) ?_, _, get?_set_self .., rfl⟩
    intro old' hold _
    rw [Option.some.inj (hold.symm.trans hget)]
  | none =>
    have hset : Grows [p] [] t (t.set p (.file content)) :=
      .set (fun hp => absurd hp hnot) (fun hp => absurd hp hnot)
        (fun old hold => by simp [hget] at hold)
    have hadopt : Grows [] (ancestors p) (t.set p (.file content))
        ((t.set p (.file content)).adopt (ancestors p)) := by
      cases hmedium : t.medium with
      | memory => exact grows_adopt fun hdisk => by simp [Tree.set, hmedium] at hdisk
      | disk =>
        obtain ⟨hobstacle, ⟨e, he, -⟩ | ⟨-, dir, e, hdir, he⟩⟩ := of_write_disk hmedium h
        · simp [hget] at he
        · obtain ⟨dirs, hdirs⟩ := List.head?_eq_some_iff.1 hdir
          have hclear := clear_of_obstacle? fun _ => hobstacle
          rw [hdirs] at hclear ⊢
          rw [adopt_set_of_head hclear hmedium hget he]
          exact .refl ..
    refine ⟨hset.trans hadopt, ?_⟩
    rcases hadopt.kept p _ (by simp [Spared]) (get?_set_self ..) with he | ⟨-, -, he⟩
    · exact ⟨_, he, rfl⟩
    · exact ⟨_, he, rfl⟩

section Read

theorem Rooted.of_get? (h : t.Rooted) (hq : t.get? q = some e) (hdots : Path.clean q ≠ "..")
    {dir : Text} (hdir : dir ∈ ancestors q) : ∃ d, t.get? dir = some d ∧ d.isDirectory = true := by
  rw [← ancestors_key hdots] at hdir
  obtain ⟨before, after, hentries, -⟩ := List.lookup_eq_some_iff.1 hq
  have hany := h (key q, e) (by simp [hentries]) dir hdir
  cases hget : t.get? dir with
  | none => simp [hget] at hany
  | some d => exact ⟨d, rfl, by simpa [hget] using hany⟩

theorem clean_ne_dots_of_read (hmedium : t.medium = .disk) (h : t.read q = .ok content) :
    Path.clean q ≠ ".." := by
  intro hdots
  obtain ⟨-, e, he, -, hdisk⟩ := read_eq_ok.1 h
  obtain ⟨hobstacle, hfile⟩ := hdisk hmedium
  obtain ⟨hkey, hancestors⟩ := of_clean_eq_dots hdots
  have hroot : t.get? [slash] = some e := by rw [← hkey, get?, key_key, ← get?, he]
  rw [obstacle?, hancestors] at hobstacle
  simp [hroot, hfile] at hobstacle

theorem Grows.obstacle?_eq_none (h : Grows written dirs t t') (hrooted : t.Rooted)
    (he : t.get? q = some e) (hdots : Path.clean q ≠ "..") : t'.obstacle? q = none := by
  rw [obstacle?, List.find?_eq_none]
  intro dir hdir
  obtain ⟨d, hd, hdirectory⟩ := hrooted.of_get? he hdots hdir
  obtain ⟨d', hd', hsame⟩ := h.shape dir d hd
  simp [hd', hsame (.inr hdirectory), hdirectory]

theorem Grows.read_later (h : Grows written dirs t t') (h' : Grows later dirs' t' t'')
    (hrooted : t.medium = .disk → t.Rooted) (hq : Spared (written ++ later) q)
    (hread : t'.read q = .ok content) : t''.read q = .ok content := by
  obtain ⟨hdenied, e, he, rfl, hdisk⟩ := read_eq_ok.1 hread
  rw [← h'.denied_eq] at hdenied
  rcases h'.kept q e hq.append.2 he with he' | ⟨hmemory, -, he'⟩
  · refine read_eq_ok.2 ⟨hdenied, e, he', rfl, fun hmedium => ?_⟩
    have hmedium' := h'.medium_eq.symm.trans hmedium
    have hold : t.get? q = some e := by
      cases hold : t.get? q with
      | none =>
        rcases h.added q hq.append.1 hold with hnone | ⟨-, hdir⟩
        · simp [hnone] at he
        · rw [he] at hdir
          rw [Option.some.inj hdir] at hdisk
          cases (hdisk hmedium').2
      | some old =>
        rcases h.kept q old hq.append.1 hold with hkept | ⟨hmemory, -⟩
        · rw [← he, hkept]
        · rw [h.medium_eq, hmemory] at hmedium'
          cases hmedium'
    refine ⟨?_, (hdisk hmedium').2⟩
    exact (h.trans h').obstacle?_eq_none (hrooted (h.medium_eq.symm.trans hmedium')) hold
      (clean_ne_dots_of_read hmedium' hread)
  · refine read_eq_ok.2 ⟨hdenied, _, he', rfl, fun hmedium => ?_⟩
    rw [h'.medium_eq, hmemory] at hmedium
    cases hmedium

theorem Grows.read (h : Grows written dirs t t') (hrooted : t.medium = .disk → t.Rooted)
    (hq : Spared written q) (hread : t.read q = .ok content) : t'.read q = .ok content :=
  (Grows.refl [] [] t).read_later h hrooted hq hread

theorem Grows.of_read (h : Grows written dirs t t') (hrooted : t.medium = .disk → t.Rooted)
    (hq : Spared written q) (hnew : t.get? q = none → t'.get? q = none)
    (hread : t'.read q = .ok content) : t.read q = .ok content := by
  obtain ⟨hdenied, e', he', rfl, hdisk⟩ := read_eq_ok.1 hread
  rw [h.denied_eq] at hdenied
  rw [h.medium_eq] at hdisk
  cases he : t.get? q with
  | none => simp [hnew he] at he'
  | some e =>
    rcases h.kept q e hq he with hkept | ⟨hmemory, -, hkept⟩
    · obtain rfl := Option.some.inj (he'.symm.trans hkept)
      refine read_eq_ok.2 ⟨hdenied, e', he, rfl, fun hmedium => ?_⟩
      refine ⟨?_, (hdisk hmedium).2⟩
      rw [obstacle?, List.find?_eq_none]
      intro dir hdir
      have hdots := clean_ne_dots_of_read (h.medium_eq.trans hmedium) hread
      obtain ⟨d, hd, hdirectory⟩ := (hrooted hmedium).of_get? he hdots hdir
      simp [hd, hdirectory]
    · refine read_eq_ok.2 ⟨hdenied, e, he, ?_, fun hmedium => ?_⟩
      · rw [hkept] at he'
        obtain rfl := Option.some.inj he'
        rfl
      · simp [hmemory] at hmedium

theorem Grows.obstacle?_eq (h : Grows written dirs t t') (hmedium : t.medium = .disk)
    (habove : ∀ dir ∈ ancestors q, t.get? dir = none → Spared written dir) :
    t'.obstacle? q = t.obstacle? q := by
  refine obstacle?_congr fun dir hdir => ?_
  cases hget : t.get? dir with
  | none =>
    rcases h.added dir (habove dir hdir hget) hget with hnone | ⟨-, hmade⟩
    · rw [hnone]
    · rw [hmade]
      rfl
  | some e =>
    obtain ⟨e', he', hsame⟩ := h.shape dir e hget
    simp [he', hsame (.inl hmedium)]

/-- Reading a path gives what it gave before, if it was neither written nor made and on a disk no
file was written above it. -/
theorem Grows.read_eq (h : Grows written dirs t t') (hq : Spared written q)
    (hnew : t.get? q = none → t'.get? q = none)
    (habove : t.medium = .disk → ∀ dir ∈ ancestors q, t.get? dir = none → Spared written dir) :
    t'.read q = t.read q := by
  unfold Tree.read
  rw [h.medium_eq, h.denied_eq]
  cases hmedium : t.medium with
  | memory =>
    have hcontent : (t'.inMemory q).map (·.content) = (t.inMemory q).map (·.content) := by
      unfold inMemory
      cases hget : t.get? q with
      | none => rw [hnew hget]
      | some e =>
        rcases h.kept q e hq hget with he | ⟨-, -, he⟩
        · rw [he]
        · rw [he]
          rfl
    simp only [hcontent]
  | disk =>
    have hentry : t'.get? q = t.get? q := by
      cases hget : t.get? q with
      | none => exact hnew hget
      | some e =>
        rcases h.kept q e hq hget with he | ⟨hmemory, -⟩
        · exact he
        · cases hmedium.symm.trans hmemory
    simp only [onDisk, h.obstacle?_eq hmedium (habove hmedium), hentry]

theorem Rooted.isSome_of_mem (h : t.Rooted) (he : t.get? q = some e) {dir : Text}
    (hdir : dir ∈ ancestors q) : (t.get? dir).isSome = true := by
  by_cases hdots : Path.clean q = ".."
  · obtain ⟨hkey, hancestors⟩ := of_clean_eq_dots hdots
    rw [hancestors, List.mem_singleton] at hdir
    rw [hdir, ← hkey, get?, key_key, ← get?, he]
    rfl
  · obtain ⟨d, hd, -⟩ := h.of_get? he hdots hdir
    rw [hd]
    rfl

theorem Grows.exists?_eq (h : Grows written dirs t t') (hrooted : t.medium = .disk → t.Rooted)
    (hnew : t.get? q = none → t'.get? q = none) : t'.exists? q = t.exists? q := by
  rw [Bool.eq_iff_iff, exists?_iff, exists?_iff, h.denied_eq, h.medium_eq]
  cases hget : t.get? q with
  | none => simp [hnew hget]
  | some e =>
    have hthere : (t'.get? q).isSome = true := h.present (by rw [hget]; rfl)
    have hway : t.medium = .disk → t'.obstacle? q = t.obstacle? q := by
      intro hmedium
      refine h.obstacle?_eq hmedium fun dir hdir hnone => ?_
      simpa [hnone] using (hrooted hmedium).isSome_of_mem hget hdir
    rw [hthere]
    refine and_congr_right fun _ => and_congr_right fun _ => forall_congr' fun hmedium => ?_
    rw [hway hmedium]
end Read

end Tree

end Tangle.Files
