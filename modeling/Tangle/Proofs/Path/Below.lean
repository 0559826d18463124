import Tangle.Proofs.Path

namespace Tangle

open Text

namespace Path

variable {dir target name : Text} {names down : List Text}

@[simp] theorem dropCommon_append (as bs : List Text) : dropCommon as (as ++ bs) = ([], bs) := by
  induction as with
  | nil => cases bs <;> rfl
  | cons a as ih => simpa [dropCommon] using ih

theorem relative?_eq_render (habsolute : isAbsolute dir = isAbsolute target)
    (h : components target = components dir ++ down) :
    relative? dir target = some (render false down) := by
  simp [relative?, habsolute, h]

theorem startsWith_render {lead : Text} (hlead : slash ∉ lead) :
    (render false (name :: names)).startsWith lead = name.startsWith lead := by
  rw [Bool.eq_iff_iff, startsWith, startsWith, List.isPrefixOf_iff_prefix,
    List.isPrefixOf_iff_prefix]
  cases names with
  | nil => rfl
  | cons next names =>
    have hrender : render false (name :: next :: names) =
        name ++ slash :: join [slash] (next :: names) := by
      rw [render, join_cons _ _ (List.cons_ne_nil next names)]
      · simp
      · exact List.cons_ne_nil _ _
    rw [hrender]
    exact ⟨prefix_of_prefix_append_cons hlead, fun h => h.trans (List.prefix_append ..)⟩

section Down

variable {p q : Text} {dirs : List Text}

theorem components_directory (hp : IsFull p) (h : components p = dirs ++ [name]) :
    components (directory p) = dirs := by
  have hsettled := settled_components p
  rw [hp.absolute, h, List.reverse_append] at hsettled
  have hname : IsPart name := hsettled.isPart name (by simp)
  have hdirs : Settled true dirs.reverse := hsettled.of_append
  have hpath : p = render true (dirs ++ [name]) := by rw [← h, ← hp.absolute, ← clean, hp.clean]
  cases dirs with
  | nil =>
    have hcut : cutLast slash p = some ([], name) := by
      rw [hpath]
      exact cutLast_append hname.slash_notMem []
    have hroot : components (clean [slash]) = [] := by decide
    rw [directory, hcut]
    exact hroot
  | cons dir dirs =>
    have hcut : cutLast slash p = some (render true (dir :: dirs), name) := by
      rw [hpath, render, join_append _ (List.cons_ne_nil _ _) (List.cons_ne_nil _ _),
        List.append_assoc, ← List.cons_append]
      exact cutLast_append hname.slash_notMem _
    have hrooted : isAbsolute (render true (dir :: dirs) ++ [slash]) = true := rfl
    rw [directory, hcut]
    dsimp only
    rw [components_clean, components, hrooted, parts_append_cons, parts_nil, List.append_nil]
    exact components_render hdirs

theorem push_cases (rooted : Bool) (before : List Text) (part : Text) :
    (∃ top, push rooted before part = top :: before) ∨ push rooted before part <:+ before := by
  unfold push
  split
  next => exact .inr List.suffix_rfl
  next =>
    split
    next =>
      cases before with
      | nil =>
        cases rooted with
        | true => exact .inr List.suffix_rfl
        | false => exact .inl ⟨_, rfl⟩
      | cons top rest =>
        dsimp only
        split
        next => exact .inl ⟨_, rfl⟩
        next => exact .inr (List.suffix_cons top rest)
    next => exact .inl ⟨_, rfl⟩

theorem exists_components_directory (hp : isAbsolute p = true) :
    ∃ last, slash ∉ last ∧ components p =
      ((parts last).foldl (push true) (components (directory p)).reverse).reverse := by
  have hslash : slash ∈ p := List.mem_of_head? (by simpa [isAbsolute] using hp)
  cases hcut : cutLast slash p with
  | none => exact absurd hslash (notMem_of_cutLast_eq_none hcut)
  | some cut =>
    obtain ⟨before, last⟩ := cut
    obtain ⟨rfl, hlast⟩ := cutLast_eq_some_iff.1 hcut
    have habsolute : isAbsolute (before ++ slash :: last) = isAbsolute (before ++ [slash]) := by
      cases before <;> rfl
    refine ⟨last, hlast, ?_⟩
    rw [directory, hcut]
    dsimp only
    rw [components_clean, ← hp, habsolute]
    apply components_of_parts habsolute
    rw [parts_append_cons, parts_append_cons, parts_nil, List.append_nil]

theorem prefix_components_directory {lead : List Text} (hp : isAbsolute p = true)
    (hne : names ≠ []) (h : components p = lead ++ names) : lead <+: components (directory p) := by
  obtain ⟨last, hlast, hcomponents⟩ := exists_components_directory hp
  have hlead : lead <+: components p := ⟨names, h.symm⟩
  by_cases hnil : last = []
  · have hsame : components p = components (directory p) := by
      rw [hcomponents, hnil]
      exact List.reverse_reverse _
    exact hsame ▸ hlead
  · have hpart : parts last = [last] := by simp [parts, split_eq_singleton hlast, hnil]
    rw [hpart, List.foldl_cons, List.foldl_nil] at hcomponents
    -- What stands last may be `..`; then the directory lies below the path.
    rcases push_cases true (components (directory p)).reverse last with ⟨top, htop⟩ | hsuffix
    · rw [htop, List.reverse_cons, List.reverse_reverse] at hcomponents
      rw [hcomponents] at hlead
      refine (List.prefix_concat_iff.1 hlead).resolve_left fun heq => hne ?_
      rw [← hcomponents, h, List.self_eq_append_right] at heq
      exact heq
    · rw [← List.reverse_prefix, ← hcomponents, List.reverse_reverse] at hsuffix
      exact hlead.trans hsuffix

theorem parts_flatMap_append (h : ∀ c ∈ dirs, IsPart c) (q : Text) :
    parts (dirs.flatMap (· ++ [slash]) ++ q) = dirs ++ parts q := by
  induction dirs with
  | nil => rfl
  | cons c dirs ih =>
    rw [List.forall_mem_cons] at h
    rw [List.flatMap_cons, List.append_assoc, List.append_assoc, List.singleton_append,
      parts_append_cons, parts_of_isPart h.1, ih h.2]
    rfl

theorem parts_flatMap (h : ∀ c ∈ dirs, IsPart c) : parts (dirs.flatMap (· ++ [slash])) = dirs := by
  simpa using parts_flatMap_append h []

theorem isAbsolute_flatMap_append (h : ∀ c ∈ dirs, IsPart c) (hq : slash ∉ q) :
    isAbsolute (dirs.flatMap (· ++ [slash]) ++ q) = false := by
  cases dirs with
  | nil => exact isAbsolute_of_slash_notMem hq
  | cons c dirs =>
    have hc := h c (List.mem_cons_self ..)
    have hhead : isAbsolute ((c :: dirs).flatMap (· ++ [slash]) ++ q) = isAbsolute c := by
      simp [isAbsolute, List.head?_append_of_ne_nil _ hc.ne_nil]
    rw [hhead]
    exact isAbsolute_of_slash_notMem hc.slash_notMem

theorem join_append_slash (h : dirs ≠ []) :
    join [slash] dirs ++ [slash] = dirs.flatMap (· ++ [slash]) := by
  induction dirs with
  | nil => exact absurd rfl h
  | cons c dirs ih =>
    cases dirs with
    | nil => simp [join]
    | cons d dirs =>
      rw [join_cons _ _ (List.cons_ne_nil d dirs), List.append_assoc, List.append_assoc,
        ih (List.cons_ne_nil d dirs)]
      simp only [List.flatMap_cons, List.append_assoc]

end Down

end Path

namespace Base

variable {base : Base} {p : Text} {down : List Text}

theorem display_of_components (h : Path.isAbsolute base.path = true)
    (hdown : Path.components (base.resolve p) = Path.components base.path ++ down) :
    base.display p =
      if (Path.render false down).startsWith ".." then p else Path.render false down := by
  have hresolve : Path.isAbsolute base.path = Path.isAbsolute (base.resolve p) :=
    h.trans (Path.isFull_against h p).absolute.symm
  rw [display, Path.relative?_eq_render hresolve hdown]

theorem display_of_not_below
    (h : ¬ Path.components base.path <+: Path.components (base.resolve p)) :
    base.display p = p := by
  unfold display
  split
  next rel hrel =>
    split
    next => rfl
    next hdots =>
      obtain ⟨-, down, hdown, -⟩ := Path.exists_down_of_relative? hrel (by simpa using hdots)
      exact absurd ⟨down, hdown.symm⟩ h
  next => rfl

/-- A path at or below the base is shown by the names that are left, unless the first of them starts
with two dots. Then, and outside of the base, it is shown as it is written. -/
theorem display_below (h : Path.isAbsolute base.path = true) (p : Text) :
    (∀ down, Path.components (base.resolve p) = Path.components base.path ++ down →
      (∀ name, down.head? = some name → name.startsWith ".." = false) →
      base.display p = if down = [] then ofString "." else join [slash] down) ∧
    (∀ down, Path.components (base.resolve p) = Path.components base.path ++ down →
      (∃ name, down.head? = some name ∧ name.startsWith ".." = true) → base.display p = p) ∧
    (¬ Path.components base.path <+: Path.components (base.resolve p) → base.display p = p) := by
  have hdots : slash ∉ ofString ".." := by decide
  refine ⟨fun down hdown hplain => ?_, fun down hdown hdotted => ?_, display_of_not_below⟩
  · rw [display_of_components h hdown]
    cases down with
    | nil => rfl
    | cons name names =>
      rw [Path.startsWith_render hdots, hplain name rfl]
      rfl
  · obtain ⟨name, hname, hstarts⟩ := hdotted
    obtain ⟨names, rfl⟩ := List.head?_eq_some_iff.1 hname
    rw [display_of_components h hdown, Path.startsWith_render hdots, hstarts, if_pos rfl]

theorem display_below_chapter :
    Path.isAbsolute (Base.ofPath "/" "/proj").path = true ∧
      Path.components ((Base.ofPath "/" "/proj").resolve "/proj/src/../doc/a..b") =
        Path.components (Base.ofPath "/" "/proj").path ++ [ofString "doc", ofString "a..b"] ∧
      (Base.ofPath "/" "/proj").display "/proj/src/../doc/a..b" = "doc/a..b" := by
  have hbase : Path.isAbsolute (Base.ofPath "/" "/proj").path = true := by decide
  have hdown : Path.components ((Base.ofPath "/" "/proj").resolve "/proj/src/../doc/a..b") =
      Path.components (Base.ofPath "/" "/proj").path ++ [ofString "doc", ofString "a..b"] := by
    decide
  refine ⟨hbase, hdown, ?_⟩
  rw [(display_below hbase _).1 _ hdown (by rintro _ ⟨⟩; decide)]
  decide

/-- A file of the base is not shown by the way to it: its directory has a name with two dots first. -/
theorem display_dotted_directory :
    Path.components ((Base.ofPath "/" "/proj").resolve "/proj/..a/b") =
        Path.components (Base.ofPath "/" "/proj").path ++ [ofString "..a", ofString "b"] ∧
      (Base.ofPath "/" "/proj").display "/proj/..a/b" = "/proj/..a/b" ∧
      (Base.ofPath "/" "/proj").display "/proj/..a/b" ≠
        join [slash] [ofString "..a", ofString "b"] := by
  decide

end Base

end Tangle
