import Tangle.Path
import Tangle.Proofs.Text.Parts

namespace Tangle

open Text

namespace Path

structure IsPart (part : Text) : Prop where
  ne_nil : part ≠ []
  ne_dot : part ≠ "."
  slash_notMem : slash ∉ part

/-- Parts that are left when a path is cleaned, last first. -/
def Settled (rooted : Bool) : List Text → Prop
  | [] => True
  | part :: before =>
    IsPart part ∧ (part = ".." → rooted = false ∧ ∀ p ∈ before, p = "..") ∧ Settled rooted before

variable {rooted : Bool} {part : Text} {cs before : List Text}

theorem isPart_dots : IsPart ".." := ⟨by decide, by decide, by decide⟩

theorem Settled.isPart (h : Settled rooted cs) : ∀ p ∈ cs, IsPart p := by
  induction cs with
  | nil => simp
  | cons c cs ih =>
    intro p hp
    rcases List.mem_cons.1 hp with rfl | hp
    · exact h.1
    · exact ih h.2.2 p hp

theorem Settled.ne_dots (h : Settled true cs) : ∀ p ∈ cs, p ≠ ".." := by
  induction cs with
  | nil => simp
  | cons c cs ih =>
    intro p hp hdots
    rcases List.mem_cons.1 hp with rfl | hp
    · exact Bool.noConfusion (h.2.1 hdots).1
    · exact ih h.2.2 p hp hdots

theorem Settled.of_append (h : Settled rooted (cs ++ before)) : Settled rooted before := by
  induction cs with
  | nil => exact h
  | cons c cs ih => exact ih h.2.2

theorem Settled.append (h : Settled rooted before) (hcs : ∀ c ∈ cs, IsPart c ∧ c ≠ "..") :
    Settled rooted (cs ++ before) := by
  induction cs with
  | nil => exact h
  | cons c cs ih =>
    rw [List.forall_mem_cons] at hcs
    exact ⟨hcs.1.1, fun hdots => absurd hdots hcs.1.2, ih hcs.2⟩

theorem Settled.push (h : Settled rooted before) (hne : part ≠ []) (hslash : slash ∉ part) :
    Settled rooted (push rooted before part) := by
  unfold Path.push
  split
  next => exact h
  next hdot =>
    split
    next hdots =>
      cases before with
      | nil =>
        cases rooted with
        | true => trivial
        | false => exact ⟨isPart_dots, fun _ => ⟨rfl, by simp⟩, trivial⟩
      | cons top rest =>
        dsimp only
        split
        next htop =>
          obtain ⟨hrooted, hrest⟩ := h.2.1 htop
          refine ⟨isPart_dots, fun _ => ⟨hrooted, fun p hp => ?_⟩, h⟩
          rcases List.mem_cons.1 hp with rfl | hp
          · exact htop
          · exact hrest p hp
        next => exact h.2.2
    next hdots => exact ⟨⟨hne, hdot, hslash⟩, fun heq => absurd heq hdots, h⟩

theorem push_of_settled (h : Settled rooted (part :: before)) :
    push rooted before part = part :: before := by
  unfold push
  rw [if_neg h.1.ne_dot]
  split
  next hdots =>
    obtain ⟨hrooted, hall⟩ := h.2.1 hdots
    cases before with
    | nil => simp [hrooted, hdots]
    | cons top rest => simp [hall top (List.mem_cons_self ..), hdots]
  next => rfl

theorem foldl_push_of_settled (h : Settled rooted (cs.reverse ++ before)) :
    cs.foldl (push rooted) before = cs.reverse ++ before := by
  induction cs generalizing before with
  | nil => rfl
  | cons c cs ih =>
    rw [List.reverse_cons, List.append_assoc, List.singleton_append] at h ⊢
    rw [List.foldl_cons, push_of_settled h.of_append, ih h]

theorem settled_foldl_push (hcs : ∀ c ∈ cs, c ≠ [] ∧ slash ∉ c) (h : Settled rooted before) :
    Settled rooted (cs.foldl (push rooted) before) := by
  induction cs generalizing before with
  | nil => exact h
  | cons c cs ih =>
    obtain ⟨hne, hslash⟩ := hcs c (List.mem_cons_self ..)
    exact ih (fun d hd => hcs d (List.mem_cons_of_mem _ hd)) (h.push hne hslash)

theorem of_mem_parts {p : Text} (h : part ∈ parts p) : part ≠ [] ∧ slash ∉ part := by
  obtain ⟨hsplit, hne⟩ := List.mem_filter.1 h
  exact ⟨by simpa using hne, notMem_of_mem_split hsplit⟩

theorem eq_of_mem_parts {p : Text} (hslash : slash ∉ p) (h : part ∈ parts p) : part = p := by
  rw [parts, split_eq_singleton hslash] at h
  exact List.mem_singleton.1 (List.mem_filter.1 h).1

theorem settled_components (p : Text) : Settled (isAbsolute p) (components p).reverse := by
  rw [components, List.reverse_reverse]
  exact settled_foldl_push (fun c hc => of_mem_parts hc) trivial

@[simp] theorem parts_nil : parts [] = [] := rfl

theorem parts_append_cons (p q : Text) : parts (p ++ slash :: q) = parts p ++ parts q := by
  simp [parts, split_append_cons]

theorem parts_of_isPart (h : IsPart part) : parts part = [part] := by
  simp [parts, split_eq_singleton h.slash_notMem, h.ne_nil]

theorem parts_join (h : ∀ c ∈ cs, IsPart c) : parts (join [slash] cs) = cs := by
  induction cs with
  | nil => rfl
  | cons c cs ih =>
    have hc := h c (List.mem_cons_self ..)
    have hrest := ih fun d hd => h d (List.mem_cons_of_mem _ hd)
    cases cs with
    | nil => exact parts_of_isPart hc
    | cons d cs =>
      rw [join_cons _ _ (List.cons_ne_nil d cs), List.append_assoc, List.singleton_append,
        parts_append_cons, parts_of_isPart hc, hrest]
      rfl

theorem isAbsolute_render_relative (h : ∀ c ∈ cs, IsPart c) :
    isAbsolute (render false cs) = false := by
  cases cs with
  | nil => rfl
  | cons c cs =>
    have hc := h c (List.mem_cons_self ..)
    obtain ⟨b, rest, rfl⟩ := List.exists_cons_of_ne_nil hc.ne_nil
    have hb : b ≠ slash := by
      rintro rfl
      exact hc.slash_notMem (List.mem_cons_self ..)
    cases cs with
    | nil => simpa [render, join, isAbsolute] using hb
    | cons d cs => simpa [render, join, isAbsolute] using hb

theorem isAbsolute_render (h : Settled rooted cs.reverse) :
    isAbsolute (render rooted cs) = rooted := by
  cases rooted with
  | true => rfl
  | false => exact isAbsolute_render_relative fun c hc => h.isPart c (List.mem_reverse.2 hc)

theorem components_render (h : Settled rooted cs.reverse) :
    components (render rooted cs) = cs := by
  have hcs : ∀ c ∈ cs, IsPart c := fun c hc => h.isPart c (List.mem_reverse.2 hc)
  rw [components, isAbsolute_render h]
  cases rooted with
  | true =>
    have hparts : parts (render true cs) = cs := by
      rw [render, ← List.nil_append (slash :: _), parts_append_cons, parts_join hcs]
      rfl
    rw [hparts, foldl_push_of_settled (by simpa using h)]
    simp
  | false =>
    cases cs with
    | nil => decide
    | cons c cs =>
      have hparts : parts (render false (c :: cs)) = c :: cs := parts_join hcs
      rw [hparts, foldl_push_of_settled (by simpa using h)]
      simp

variable (p : Text)

@[simp] theorem isAbsolute_clean : isAbsolute (clean p) = isAbsolute p :=
  isAbsolute_render (settled_components p)

@[simp] theorem components_clean : components (clean p) = components p :=
  components_render (settled_components p)

@[simp] theorem clean_clean : clean (clean p) = clean p := by
  rw [clean, isAbsolute_clean, components_clean, ← clean]

theorem render_ne_nil (h : ∀ c ∈ cs, IsPart c) : render rooted cs ≠ [] := by
  cases rooted with
  | true => exact List.cons_ne_nil _ _
  | false =>
    cases cs with
    | nil => decide
    | cons c cs =>
      have hc := (h c (List.mem_cons_self ..)).ne_nil
      cases cs with
      | nil => exact hc
      | cons d cs => simp [render, join, hc]

theorem isPart_of_mem_components {p c : Text} (h : c ∈ components p) : IsPart c :=
  (settled_components p).isPart c (List.mem_reverse.2 h)

theorem isPart_of_components {lead names : List Text} {p : Text}
    (h : components p = lead ++ names) : ∀ c ∈ names, IsPart c :=
  fun _ hc => isPart_of_mem_components (h ▸ List.mem_append_right lead hc)

theorem names_of_components {lead names : List Text} {p : Text} (hp : isAbsolute p = true)
    (h : components p = lead ++ names) : ∀ c ∈ names, IsPart c ∧ c ≠ ".." := by
  intro c hc
  have hsettled := settled_components p
  rw [hp, h, List.reverse_append] at hsettled
  have hc : c ∈ names.reverse ++ lead.reverse := List.mem_append_left _ (List.mem_reverse.2 hc)
  exact ⟨hsettled.isPart c hc, hsettled.ne_dots c hc⟩

theorem clean_ne_nil : clean p ≠ [] :=
  render_ne_nil fun _ hc => isPart_of_mem_components hc

section Append

variable {p} {dir q r : Text}

theorem eq_of_components (hp : clean p = p) (hq : clean q = q)
    (habsolute : isAbsolute p = isAbsolute q) (h : components p = components q) : p = q := by
  rw [← hp, ← hq, clean, clean, habsolute, h]

theorem ne_nil_of_isAbsolute (h : isAbsolute p = true) : p ≠ [] := by
  rintro rfl
  cases h

theorem isAbsolute_of_slash_notMem (h : slash ∉ p) : isAbsolute p = false := by
  rw [isAbsolute, beq_eq_false_iff_ne]
  exact fun hhead => h (List.mem_of_head? hhead)

theorem components_of_parts (habsolute : isAbsolute r = isAbsolute p)
    (h : parts r = parts p ++ parts q) :
    components r = ((parts q).foldl (push (isAbsolute p)) (components p).reverse).reverse := by
  rw [components, habsolute, h, List.foldl_append, components, List.reverse_reverse]

theorem append_of_ne_nil (hdir : dir ≠ []) (hp : p ≠ []) :
    append dir p = clean (dir ++ slash :: p) := by
  unfold append
  split <;> simp_all

theorem exists_append_eq_clean (hdir : dir ≠ []) (p : Text) :
    ∃ q, append dir p = clean q ∧ isAbsolute q = isAbsolute dir ∧
      parts q = parts dir ++ parts p := by
  by_cases hp : p = []
  · refine ⟨dir, ?_, rfl, ?_⟩
    · rw [hp, append]
      exact hdir
    · rw [hp, parts_nil, List.append_nil]
  · refine ⟨dir ++ slash :: p, append_of_ne_nil hdir hp, ?_, parts_append_cons dir p⟩
    simp [isAbsolute, List.head?_append_of_ne_nil _ hdir]

theorem isAbsolute_append (hdir : dir ≠ []) (p : Text) :
    isAbsolute (append dir p) = isAbsolute dir := by
  obtain ⟨q, hq, habsolute, -⟩ := exists_append_eq_clean hdir p
  rw [hq, isAbsolute_clean, habsolute]

theorem clean_append (hdir : dir ≠ []) (p : Text) : clean (append dir p) = append dir p := by
  obtain ⟨q, hq, -, -⟩ := exists_append_eq_clean hdir p
  rw [hq, clean_clean]

theorem components_append (hdir : dir ≠ []) (p : Text) : components (append dir p) =
    ((parts p).foldl (push (isAbsolute dir)) (components dir).reverse).reverse := by
  obtain ⟨q, hq, habsolute, hparts⟩ := exists_append_eq_clean hdir p
  rw [hq, components_clean, components_of_parts habsolute hparts]

theorem append_eq_clean {target : Text} (hdir : dir ≠ [])
    (habsolute : isAbsolute dir = isAbsolute target)
    (h : components target = components dir ++ parts q) : append dir q = clean target := by
  have hsettled : Settled (isAbsolute dir) ((parts q).reverse ++ (components dir).reverse) := by
    rw [← List.reverse_append, ← h, habsolute]
    exact settled_components target
  apply eq_of_components (clean_append hdir q) (clean_clean target)
  · rw [isAbsolute_append hdir, isAbsolute_clean, habsolute]
  · rw [components_append hdir, components_clean, foldl_push_of_settled hsettled, h]
    simp

theorem components_append_of_names (hdir : dir ≠ [])
    (h : ∀ c ∈ parts p, c ≠ "." ∧ c ≠ "..") :
    components (append dir p) = components dir ++ parts p := by
  have hnames : ∀ c ∈ (parts p).reverse, IsPart c ∧ c ≠ ".." := by
    intro c hc
    have hc := List.mem_reverse.1 hc
    obtain ⟨hne, hslash⟩ := of_mem_parts hc
    exact ⟨⟨hne, (h c hc).1, hslash⟩, (h c hc).2⟩
  rw [components_append hdir, foldl_push_of_settled ((settled_components dir).append hnames)]
  simp

/-- To go on from a directory by one path and then by another is to go on by the parts of both. -/
theorem append_append (hdir : dir ≠ []) (h : parts r = parts p ++ parts q) :
    append (append dir p) q = append dir r := by
  have hne : append dir p ≠ [] := by
    rw [← clean_append hdir]
    exact clean_ne_nil _
  apply eq_of_components (clean_append hne q) (clean_append hdir r)
  · rw [isAbsolute_append hne, isAbsolute_append hdir, isAbsolute_append hdir]
  · rw [components_append hne, components_append hdir, components_append hdir,
      isAbsolute_append hdir, h, List.foldl_append, List.reverse_reverse]

theorem append_render (hdir : dir ≠ []) (down : List Text) :
    append dir (render false down) = append dir (join [slash] down) := by
  cases down with
  | nil =>
    have hdot : parts (ofString ".") = [ofString "."] := by decide
    apply eq_of_components (clean_append hdir _) (clean_append hdir _)
    · rw [isAbsolute_append hdir, isAbsolute_append hdir]
    · rw [components_append hdir, components_append hdir, render, hdot]
      rfl
  | cons c down => rfl

end Append

section Full

variable {p} {dir : Text}

structure IsFull (p : Text) : Prop where
  absolute : isAbsolute p = true
  clean : clean p = p

theorem isFull_clean (h : isAbsolute p = true) : IsFull (clean p) :=
  ⟨by rwa [isAbsolute_clean], clean_clean p⟩

theorem isFull_append (h : isAbsolute dir = true) (p : Text) : IsFull (append dir p) where
  absolute := by rw [isAbsolute_append (ne_nil_of_isAbsolute h), h]
  clean := clean_append (ne_nil_of_isAbsolute h) p

theorem isFull_against (h : isAbsolute dir = true) (p : Text) : IsFull (against dir p) := by
  unfold against
  split
  next hp => exact isFull_clean hp
  next => exact isFull_append h p

theorem IsFull.against_eq (h : IsFull p) (dir : Text) : against dir p = p := by
  rw [against, if_pos h.absolute, h.clean]

theorem IsFull.exists_names (h : IsFull p) :
    ∃ names : List Text, p = slash :: join [slash] names ∧
      ∀ name ∈ names, IsPart name ∧ name ≠ ".." := by
  refine ⟨components p, ?_, names_of_components h.absolute (List.nil_append _).symm⟩
  calc
    p = Path.clean p := h.clean.symm
    _ = render true (components p) := by rw [Path.clean, h.absolute]
    _ = slash :: join [slash] (components p) := rfl

theorem isFull_directory (h : isAbsolute p = true) : IsFull (directory p) := by
  cases p with
  | nil => cases h
  | cons b p =>
    obtain rfl : b = slash := by simpa [isAbsolute] using h
    unfold directory
    rw [cutLast]
    cases cutLast slash p <;> exact isFull_clean rfl

end Full

section Relative

theorem snd_dropCommon_subset (as bs : List Text) : (dropCommon as bs).2 ⊆ bs := by
  fun_induction dropCommon as bs with
  | case1 as b bs ih => exact List.subset_cons_of_subset b ih
  | case2 a as b bs h => exact List.Subset.refl _
  | case3 as bs h => exact List.Subset.refl _

theorem snd_dropCommon_take_append (as : List Text) (n : Nat) (bs : List Text) :
    (dropCommon as (as.take n ++ bs)).2 ⊆ bs := by
  induction as generalizing n with
  | nil => simpa using snd_dropCommon_subset [] bs
  | cons a as ih =>
    cases n with
    | zero => exact snd_dropCommon_subset (a :: as) bs
    | succ n => simpa [dropCommon] using ih n

theorem exists_push_eq (rooted : Bool) (new before : List Text) (n : Nat) (part : Text) :
    ∃ new' m, push rooted (new ++ before.drop n) part = new' ++ before.drop m ∧
      ∀ c ∈ new', c = ".." ∨ c = part ∨ c ∈ new := by
  unfold push
  split
  next => exact ⟨new, n, rfl, fun c hc => .inr (.inr hc)⟩
  next =>
    split
    next =>
      cases new with
      | cons top rest =>
        dsimp only [List.cons_append]
        split
        next => exact ⟨".." :: top :: rest, n, rfl, by simp +contextual⟩
        next => exact ⟨rest, n, rfl, fun c hc => .inr (.inr (List.mem_cons_of_mem _ hc))⟩
      | nil =>
        cases hdrop : before.drop n with
        | nil =>
          cases rooted with
          | true => exact ⟨[], n, by simp [hdrop], by simp⟩
          | false => exact ⟨[".."], n, by simp [hdrop], by simp⟩
        | cons top rest =>
          dsimp only [List.nil_append]
          split
          next => exact ⟨[".."], n, by simp [hdrop], by simp⟩
          next =>
            -- This is where a part of `before` is taken back.
            refine ⟨[], n + 1, ?_, by simp⟩
            rw [List.nil_append, ← List.tail_drop, hdrop]
            rfl
    next => exact ⟨part :: new, n, rfl, by simp +contextual⟩

theorem exists_foldl_push_eq (rooted : Bool) (before cs : List Text) :
    ∃ new n, cs.foldl (push rooted) before = new ++ before.drop n ∧
      ∀ c ∈ new, c = ".." ∨ c ∈ cs := by
  induction cs using List.reverseRecOn with
  | nil => exact ⟨[], 0, rfl, by simp⟩
  | append_singleton cs part ih =>
    obtain ⟨new, n, heq, hnew⟩ := ih
    obtain ⟨new', m, hpush, hnew'⟩ := exists_push_eq rooted new before n part
    refine ⟨new', m, by rw [List.foldl_concat, heq, hpush], fun c hc => ?_⟩
    rcases hnew' c hc with h | h | h
    · exact .inl h
    · exact .inr (by simp [h])
    · exact (hnew c h).imp id (List.mem_append_left _)

theorem of_mem_components {p c : Text} (h : c ∈ components p) : c = ".." ∨ c ∈ parts p := by
  obtain ⟨new, n, heq, hnew⟩ := exists_foldl_push_eq (isAbsolute p) [] (parts p)
  exact hnew c (by simpa [components, heq] using h)

theorem exists_components_append {dir : Text} (h : dir ≠ []) (p : Text) :
    ∃ n new, components (append dir p) = (components dir).take n ++ new ∧
      ∀ c ∈ new, c = ".." ∨ c ∈ parts p := by
  obtain ⟨new, n, heq, hnew⟩ :=
    exists_foldl_push_eq (isAbsolute dir) (components dir).reverse (parts p)
  refine ⟨(components dir).length - n, new.reverse, ?_, fun c hc => hnew c (List.mem_reverse.1 hc)⟩
  rw [components_append h, heq, List.reverse_append, List.reverse_drop, List.reverse_reverse,
    List.length_reverse]

theorem exists_components_against (dir p : Text) :
    ∃ n new, components (against dir p) = (components dir).take n ++ new ∧
      ∀ c ∈ new, c = ".." ∨ c ∈ parts p := by
  unfold against
  split
  next => exact ⟨0, components p, by simp, fun c hc => of_mem_components hc⟩
  next =>
    by_cases hdir : dir = []
    · refine ⟨0, components p, ?_, fun c hc => of_mem_components hc⟩
      cases p with
      | nil => rw [hdir, append, List.take_zero, List.nil_append]
      | cons b p => simp [hdir, append]
    · exact exists_components_append hdir p

theorem mem_render {cs : List Text} {b : UInt8} (h : b ∈ render false cs) :
    b ∈ ofString "." ∨ b = slash ∨ ∃ c ∈ cs, b ∈ c := by
  cases cs with
  | nil => exact .inl h
  | cons c cs => exact .inr ((mem_join h).imp List.mem_singleton.1 id)

theorem mem_of_relative?_against {dir p rel : Text} {b : UInt8}
    (h : relative? dir (against dir p) = some rel) (hb : b ∈ rel) :
    b ∈ p ∨ b ∈ ofString ".." ∨ b = slash := by
  unfold relative? at h
  split at h
  next => simp at h
  next =>
    dsimp only at h
    split at h
    next => simp at h
    next =>
      obtain rfl := Option.some.inj h
      obtain ⟨n, new, heq, hnew⟩ := exists_components_against dir p
      rcases mem_render hb with hb | hb | ⟨c, hc, hb⟩
      · exact .inr (.inl ((by decide : ofString "." ⊆ ofString "..") hb))
      · exact .inr (.inr hb)
      · rcases List.mem_append.1 hc with hc | hc
        · obtain ⟨_, -, rfl⟩ := List.mem_map.1 hc
          exact .inr (.inl hb)
        · rw [heq] at hc
          rcases hnew c (snd_dropCommon_take_append _ n new hc) with rfl | hpart
          · exact .inr (.inl hb)
          · exact .inl ((infix_of_mem_split (List.mem_filter.1 hpart).1).subset hb)

theorem eq_append_of_dropCommon {as bs : List Text} (h : (dropCommon as bs).1 = []) :
    bs = as ++ (dropCommon as bs).2 := by
  fun_induction dropCommon as bs with
  | case1 as b bs ih => rw [List.cons_append, ← ih h]
  | case2 a as b bs hne => cases h
  | case3 as bs hcases =>
    obtain rfl : as = [] := h
    rfl

theorem startsWith_render_dots (cs : List Text) :
    (render false (".." :: cs)).startsWith ".." = true := by
  rw [startsWith, List.isPrefixOf_iff_prefix]
  cases cs with
  | nil => exact List.prefix_rfl
  | cons c cs =>
    rw [render, join_cons _ _ (List.cons_ne_nil c cs), List.append_assoc]
    · exact List.prefix_append ..
    · exact List.cons_ne_nil _ _

theorem exists_down_of_relative? {dir target rel : Text} (h : relative? dir target = some rel)
    (hdots : rel.startsWith ".." = false) :
    isAbsolute dir = isAbsolute target ∧
      ∃ down, components target = components dir ++ down ∧ rel = render false down := by
  unfold relative? at h
  split at h
  next => simp at h
  next habsolute =>
    refine ⟨by simpa using habsolute, (dropCommon (components dir) (components target)).2, ?_⟩
    dsimp only at h
    split at h
    next => simp at h
    next =>
      obtain rfl := Option.some.inj h
      cases hup : (dropCommon (components dir) (components target)).1 with
      | nil => exact ⟨eq_append_of_dropCommon hup, by rw [List.map_nil, List.nil_append]⟩
      | cons c up =>
        rw [hup, List.map_cons, List.cons_append, startsWith_render_dots] at hdots
        cases hdots

variable {dir : Text}

theorem clean_against (hdir : dir ≠ []) (p : Text) : clean (against dir p) = against dir p := by
  unfold against
  split
  next => exact clean_clean p
  next => exact clean_append hdir p

theorem append_render_eq_clean {target : Text} {down : List Text} (hdir : dir ≠ [])
    (habsolute : isAbsolute dir = isAbsolute target)
    (h : components target = components dir ++ down) :
    append dir (render false down) = clean target := by
  rw [append_render hdir]
  exact append_eq_clean hdir habsolute (by rw [parts_join (isPart_of_components h), h])

theorem against_render {target : Text} {down : List Text} (hdir : dir ≠ [])
    (habsolute : isAbsolute dir = isAbsolute target)
    (h : components target = components dir ++ down) :
    against dir (render false down) = clean target := by
  have hrelative := isAbsolute_render_relative (isPart_of_components h)
  rw [against, hrelative, if_neg Bool.false_ne_true, append_render_eq_clean hdir habsolute h]

end Relative

end Path

theorem Base.mem_display {base : Base} {p : Text} {b : UInt8} (h : b ∈ base.display p) :
    b ∈ p ∨ b ∈ ofString ".." ∨ b = slash := by
  unfold display at h
  split at h
  next rel hrel =>
    split at h
    next => exact .inl h
    next => exact Path.mem_of_relative?_against hrel h
  next => exact .inl h

theorem Base.resolve_display {base : Base} (h : base.path ≠ []) (p : Text) :
    base.resolve (base.display p) = base.resolve p := by
  unfold display
  split
  next rel hrel =>
    split
    next => rfl
    next hdots =>
      obtain ⟨habsolute, down, hdown, rfl⟩ :=
        Path.exists_down_of_relative? hrel (by simpa using hdots)
      exact (Path.against_render h habsolute hdown).trans (Path.clean_against h p)
  next => rfl

theorem Base.same_display {base : Base} (h : Path.isAbsolute base.path = true) (p : Text) :
    Path.IsFull (base.resolve p) ∧
      (∃ names : List Text, base.resolve p = slash :: join [slash] names ∧
        ∀ name ∈ names, Path.IsPart name ∧ name ≠ "..") ∧
      base.resolve (base.resolve p) = base.resolve p ∧
      base.same p (base.display p) = true ∧
      ∀ q, base.display p = base.display q → base.same p q = true := by
  have hne : base.path ≠ [] := by
    intro hnil
    rw [hnil] at h
    cases h
  have hfull : Path.IsFull (base.resolve p) := Path.isFull_against h p
  refine ⟨hfull, hfull.exists_names, hfull.against_eq _, ?_, fun q hq => ?_⟩
  · rw [same, beq_iff_eq, resolve_display hne]
  · rw [same, beq_iff_eq]
    calc
      base.resolve p = base.resolve (base.display p) := (resolve_display hne p).symm
      _ = base.resolve (base.display q) := by rw [hq]
      _ = base.resolve q := resolve_display hne q

theorem Base.same_display_roundabout :
    Path.isAbsolute (Base.ofPath "/" "/proj//x/..").path = true ∧
      (Base.ofPath "/" "/proj//x/..").display "../proj/./..a//b" = "../proj/./..a//b" ∧
      (Base.ofPath "/" "/proj//x/..").display "../proj/./a//b" = "a/b" ∧
      (Base.ofPath "/" "/proj//x/..").same "../proj/./a//b" "a/b" = true := by
  have hbase : Path.isAbsolute (Base.ofPath "/" "/proj//x/..").path = true := by decide
  have hshown : (Base.ofPath "/" "/proj//x/..").display "../proj/./a//b" = "a/b" := by decide
  obtain ⟨-, -, -, hsame, -⟩ := Base.same_display hbase "../proj/./a//b"
  rw [hshown] at hsame
  exact ⟨hbase, by decide, hshown, hsame⟩

end Tangle
