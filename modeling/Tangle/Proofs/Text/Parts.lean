import Tangle.Text.Line
import Mathlib.Data.List.Infix

namespace Tangle.Text

theorem cutByte_append {sep : UInt8} {before : Text} (h : sep ∉ before) (rest : Text) :
    cutByte sep (before ++ sep :: rest) = some (before, rest) := by
  induction before with
  | nil => simp [cutByte]
  | cons b before ih =>
    simp only [List.mem_cons, not_or] at h
    simp [cutByte, Ne.symm h.1, ih h.2]

theorem cutByte_eq_some {sep : UInt8} {t before rest : Text}
    (h : cutByte sep t = some (before, rest)) : t = before ++ sep :: rest := by
  induction t generalizing before with
  | nil => simp [cutByte] at h
  | cons b t ih =>
    simp only [cutByte] at h
    split at h
    next hb =>
      simp only [Option.some.injEq, Prod.mk.injEq] at h
      simp [← h.1, ← h.2, hb]
    next =>
      obtain ⟨⟨x, y⟩, hxy, heq⟩ := Option.map_eq_some_iff.1 h
      simp only [Prod.mk.injEq] at heq
      obtain ⟨rfl, rfl⟩ := heq
      simp [ih hxy]

theorem cutLast_eq_none {sep : UInt8} {t : Text} (h : sep ∉ t) : cutLast sep t = none := by
  induction t with
  | nil => rfl
  | cons b t ih =>
    simp only [List.mem_cons, not_or] at h
    simp [cutLast, ih h.2, Ne.symm h.1]

theorem cutLast_append {sep : UInt8} {rest : Text} (h : sep ∉ rest) (before : Text) :
    cutLast sep (before ++ sep :: rest) = some (before, rest) := by
  induction before with
  | nil => simp [cutLast, cutLast_eq_none h]
  | cons b before ih => simp [cutLast, ih]

theorem notMem_of_cutLast_eq_none {sep : UInt8} {t : Text} (h : cutLast sep t = none) :
    sep ∉ t := by
  induction t with
  | nil => simp
  | cons b t ih =>
    simp only [cutLast] at h
    split at h
    next => simp at h
    next hnone =>
      have hb : b ≠ sep := by simpa using h
      simp [hb.symm, ih hnone]

theorem cutLast_eq_some_iff {sep : UInt8} {t before rest : Text} :
    cutLast sep t = some (before, rest) ↔ t = before ++ sep :: rest ∧ sep ∉ rest := by
  refine ⟨fun h => ?_, fun ⟨ht, hrest⟩ => ht ▸ cutLast_append hrest before⟩
  induction t generalizing before with
  | nil => simp [cutLast] at h
  | cons b t ih =>
    simp only [cutLast] at h
    split at h
    next before' rest' hcut =>
      simp only [Option.some.injEq, Prod.mk.injEq] at h
      obtain ⟨rfl, rfl⟩ := h
      exact (ih hcut).imp (congrArg (b :: ·)) id
    next hnone =>
      split at h
      next hb =>
        simp only [Option.some.injEq, Prod.mk.injEq] at h
        obtain ⟨rfl, rfl⟩ := h
        exact ⟨congrArg (· :: t) hb, notMem_of_cutLast_eq_none hnone⟩
      next => simp at h

theorem cutLast_eq_some {sep : UInt8} {t before rest : Text}
    (h : cutLast sep t = some (before, rest)) : t = before ++ sep :: rest :=
  (cutLast_eq_some_iff.1 h).1

theorem isSome_cut_of_infix {sep t : Text} (h : sep <:+: t) : (cut sep t).isSome = true := by
  obtain ⟨before, after, rfl⟩ := h
  induction before with
  | nil =>
    cases hsep : sep ++ after with
    | nil => simp_all [cut]
    | cons b t =>
      have hafter := after?_append sep after
      simp only [List.nil_append, hsep] at hafter ⊢
      simp [cut, hafter]
  | cons b before ih =>
    simp only [List.cons_append, cut]
    cases after? sep (b :: (before ++ sep ++ after)) with
    | some rest => rfl
    | none => simpa using ih

theorem length_le_of_cut {sep t before rest before' rest' : Text}
    (h : cut sep t = some (before, rest)) (ht : t = before' ++ sep ++ rest') :
    before.length ≤ before'.length := by
  induction t generalizing before before' with
  | nil =>
    simp only [cut] at h
    split at h <;> simp_all
  | cons b t ih =>
    simp only [cut] at h
    split at h
    next =>
      simp only [Option.some.injEq, Prod.mk.injEq] at h
      simp [← h.1]
    next hnone =>
      obtain ⟨⟨x, y⟩, hxy, heq⟩ := Option.map_eq_some_iff.1 h
      simp only [Prod.mk.injEq] at heq
      obtain ⟨rfl, rfl⟩ := heq
      cases before' with
      | nil =>
        rw [ht, List.nil_append, after?_append] at hnone
        cases hnone
      | cons b' before' =>
        simp only [List.cons_append, List.cons.injEq] at ht
        exact Nat.succ_le_succ (ih hxy ht.2)

/-- Where the first byte of a separator is not repeated in it, no two occurrences overlap, so that
every occurrence after the first lies behind it. -/
theorem exists_occurrence_after_cut {a : UInt8} {sep t before rest before' rest' : Text}
    (ha : a ∉ sep) (h : cut (a :: sep) t = some (before, rest))
    (ht : t = before' ++ a :: sep ++ rest') :
    rest' = rest ∨ ∃ between, rest = between ++ a :: sep ++ rest' := by
  have hcut := cut_eq_some h
  have hbefore : before <+: t := ⟨a :: sep ++ rest, by rw [hcut, List.append_assoc]⟩
  have hbefore' : before' <+: t := ⟨a :: sep ++ rest', by rw [ht, List.append_assoc]⟩
  obtain ⟨lead, rfl⟩ :=
    List.prefix_of_prefix_length_le hbefore hbefore' (length_le_of_cut h ht)
  have heq : a :: (sep ++ rest) = lead ++ a :: (sep ++ rest') := by
    simpa using hcut.symm.trans ht
  cases lead with
  | nil => exact .inl (by simpa using heq.symm)
  | cons b lead =>
    rw [List.cons_append, List.cons.injEq] at heq
    rcases List.append_eq_append_iff.1 heq.2 with ⟨between, -, hrest⟩ | ⟨overlap, rfl, hrest⟩
    · exact .inr ⟨between, by simpa using hrest⟩
    · cases overlap with
      | nil => exact .inr ⟨[], by simpa using hrest.symm⟩
      | cons c overlap =>
        obtain rfl : a = c := (List.cons.inj hrest).1
        simp at ha

theorem contains_iff_isInfix {t part : Text} : t.contains part = true ↔ part <:+: t := by
  constructor
  · intro h
    obtain ⟨⟨before, after⟩, hcut⟩ := Option.isSome_iff_exists.1 h
    exact ⟨before, after, (cut_eq_some hcut).symm⟩
  · exact isSome_cut_of_infix

theorem prefix_of_prefix_append_cons {lead t rest : Text} {b : UInt8} (hb : b ∉ lead)
    (h : lead <+: t ++ b :: rest) : lead <+: t := by
  rcases List.prefix_or_prefix_of_prefix h (List.prefix_append ..) with hlead | ⟨excess, rfl⟩
  · exact hlead
  · have hexcess : excess <+: b :: rest := (List.prefix_append_right_inj t).1 h
    rcases List.prefix_cons_iff.1 hexcess with rfl | ⟨tail, rfl, -⟩
    · simp
    · simp at hb

theorem infix_of_infix_append_cons {w t rest : Text} {b : UInt8} (hb : b ∉ w)
    (h : w <:+: t ++ b :: rest) : w <:+: t ∨ w <:+: rest := by
  induction t with
  | nil =>
    rcases List.infix_cons_iff.1 h with h | h
    · exact .inl (prefix_of_prefix_append_cons (t := []) hb h).isInfix
    · exact .inr h
  | cons a t ih =>
    rw [List.cons_append] at h
    rcases List.infix_cons_iff.1 h with h | h
    · exact .inl (prefix_of_prefix_append_cons (t := a :: t) hb h).isInfix
    · exact (ih h).imp List.infix_cons id

theorem split_ne_nil (sep : UInt8) (t : Text) : split sep t ≠ [] := by
  cases t with
  | nil => simp [split]
  | cons b t =>
    simp only [split]
    split
    next => simp
    next => split <;> simp

theorem join_cons {parts : List Text} (sep part : Text) (h : parts ≠ []) :
    join sep (part :: parts) = part ++ sep ++ join sep parts := by
  cases parts with
  | nil => exact absurd rfl h
  | cons => rfl

@[simp] theorem join_split (sep : UInt8) (t : Text) : join [sep] (split sep t) = t := by
  induction t with
  | nil => rfl
  | cons b t ih =>
    simp only [split]
    split
    next h => rw [join_cons _ _ (split_ne_nil sep t), ih]; simp [h]
    next =>
      split
      next part parts h =>
        rw [h] at ih
        cases parts with
        | nil => simpa [join] using ih
        | cons => simpa [join] using ih
      next h => exact absurd h (split_ne_nil sep t)

theorem notMem_of_mem_split {sep : UInt8} {t part : Text} (h : part ∈ split sep t) :
    sep ∉ part := by
  induction t generalizing part with
  | nil => simp_all [split]
  | cons b t ih =>
    simp only [split] at h
    split at h
    next =>
      rcases List.mem_cons.1 h with rfl | h
      · simp
      · exact ih h
    next hb =>
      split at h
      next first parts hsplit =>
        rw [hsplit] at ih
        rcases List.mem_cons.1 h with rfl | h
        · simp [Ne.symm hb, ih (List.mem_cons_self ..)]
        · exact ih (List.mem_cons_of_mem _ h)
      next hsplit => exact absurd hsplit (split_ne_nil sep t)

theorem split_append_cons (sep : UInt8) (t u : Text) :
    split sep (t ++ sep :: u) = split sep t ++ split sep u := by
  induction t with
  | nil => simp [split]
  | cons b t ih =>
    simp only [List.cons_append, split, ih]
    split
    next => rfl
    next =>
      obtain ⟨part, parts, h⟩ := List.exists_cons_of_ne_nil (split_ne_nil sep t)
      simp [h]

theorem split_eq_singleton {sep : UInt8} {t : Text} (h : sep ∉ t) : split sep t = [t] := by
  induction t with
  | nil => rfl
  | cons b t ih =>
    simp only [List.mem_cons, not_or] at h
    simp [split, Ne.symm h.1, ih h.2]

theorem split_join {sep : UInt8} {parts : List Text} (hne : parts ≠ [])
    (h : ∀ part ∈ parts, sep ∉ part) : split sep (join [sep] parts) = parts := by
  induction parts with
  | nil => exact absurd rfl hne
  | cons part parts ih =>
    obtain ⟨hpart, hparts⟩ := List.forall_mem_cons.1 h
    cases parts with
    | nil => exact split_eq_singleton hpart
    | cons second parts =>
      have hsecond := List.cons_ne_nil second parts
      rw [join_cons _ _ hsecond, List.append_assoc, List.singleton_append, split_append_cons,
        split_eq_singleton hpart, ih hsecond hparts]
      rfl

theorem join_append {parts parts' : List Text} (sep : Text) (h : parts ≠ []) (h' : parts' ≠ []) :
    join sep (parts ++ parts') = join sep parts ++ sep ++ join sep parts' := by
  induction parts with
  | nil => exact absurd rfl h
  | cons part parts ih =>
    cases parts with
    | nil => exact join_cons sep part h'
    | cons second parts =>
      have hsecond := List.cons_ne_nil second parts
      rw [List.cons_append, join_cons _ _ (List.append_ne_nil_of_left_ne_nil hsecond _),
        join_cons _ _ hsecond, ih hsecond]
      simp only [List.append_assoc]

theorem infix_join {part : Text} {parts : List Text} (sep : Text) (h : part ∈ parts) :
    part <:+: join sep parts := by
  induction parts with
  | nil => simp at h
  | cons first parts ih =>
    cases parts with
    | nil =>
      obtain rfl : part = first := by simpa using h
      exact List.infix_rfl
    | cons second parts =>
      rw [join_cons _ _ (List.cons_ne_nil second parts)]
      cases h with
      | head => exact ⟨[], sep ++ join sep (second :: parts), by simp⟩
      | tail _ h => exact (ih h).trans (List.suffix_append ..).isInfix

theorem mem_join {sep : Text} {parts : List Text} {b : UInt8} (h : b ∈ join sep parts) :
    b ∈ sep ∨ ∃ part ∈ parts, b ∈ part := by
  induction parts with
  | nil => simp [join] at h
  | cons part parts ih =>
    cases parts with
    | nil => exact .inr ⟨part, List.mem_cons_self .., h⟩
    | cons second parts =>
      rw [join_cons _ _ (List.cons_ne_nil second parts)] at h
      simp only [List.mem_append] at h
      rcases h with (h | h) | h
      · exact .inr ⟨part, List.mem_cons_self .., h⟩
      · exact .inl h
      · refine (ih h).imp id ?_
        rintro ⟨other, hmem, hb⟩
        exact ⟨other, List.mem_cons_of_mem _ hmem, hb⟩

theorem infix_of_mem_split {sep : UInt8} {t part : Text} (h : part ∈ split sep t) :
    part <:+: t := by
  have hjoin := infix_join [sep] h
  rwa [join_split] at hjoin

theorem exists_split_append {sep : UInt8} {w : Text} (hw : sep ∉ w) (t : Text) :
    ∃ part parts, split sep t = part :: parts ∧ split sep (w ++ t) = (w ++ part) :: parts := by
  obtain ⟨part, parts, ht⟩ := List.exists_cons_of_ne_nil (split_ne_nil sep t)
  refine ⟨part, parts, ht, ?_⟩
  induction w with
  | nil => exact ht
  | cons b w ih =>
    simp only [List.mem_cons, not_or] at hw
    simp [split, Ne.symm hw.1, ih hw.2]

theorem exists_infix_of_infix {sep : UInt8} {w t : Text} (hw : sep ∉ w) (h : w <:+: t) :
    ∃ part ∈ split sep t, w <:+: part := by
  obtain ⟨before, after, rfl⟩ := h
  induction before with
  | nil =>
    obtain ⟨part, parts, -, h⟩ := exists_split_append hw after
    exact ⟨w ++ part, by simp [h], (List.prefix_append ..).isInfix⟩
  | cons b before ih =>
    obtain ⟨part, hpart, hinfix⟩ := ih
    simp only [List.cons_append, split]
    split
    next => exact ⟨part, List.mem_cons_of_mem _ hpart, hinfix⟩
    next =>
      split
      next first parts h =>
        rw [h] at hpart
        cases hpart with
        | head => exact ⟨b :: part, List.mem_cons_self .., List.infix_cons hinfix⟩
        | tail _ hpart => exact ⟨part, List.mem_cons_of_mem _ hpart, hinfix⟩
      next h => exact absurd h (split_ne_nil sep _)

theorem hang_append (indent t u : Text) : hang indent (t ++ u) = hang indent t ++ hang indent u := by
  simp [hang]

theorem hang_eq_self {t : Text} (indent : Text) (h : lf ∉ t) : hang indent t = t := by
  induction t with
  | nil => rfl
  | cons b t ih =>
    simp only [List.mem_cons, not_or] at h
    rw [← List.singleton_append, hang_append, ih h.2]
    simp [hang, Ne.symm h.1]

@[simp] theorem hang_cons_lf (indent t : Text) :
    hang indent (lf :: t) = lf :: (indent ++ hang indent t) := by
  simp [hang]

theorem hang_hang {indent : Text} (h : lf ∉ indent) (outer t : Text) :
    hang outer (hang indent t) = hang (outer ++ indent) t := by
  induction t with
  | nil => rfl
  | cons b t ih =>
    by_cases hb : b = lf
    · rw [hb, hang_cons_lf, hang_cons_lf, hang_cons_lf, hang_append, hang_eq_self outer h, ih,
        List.append_assoc]
    · rw [← List.singleton_append, hang_append, hang_append, hang_append, ih]
      simp [hang, hb]

theorem nodup_eraseDups (ts : List Text) : ts.eraseDups.Nodup := by
  cases ts with
  | nil => exact .nil
  | cons t ts =>
    rw [List.eraseDups_cons, List.nodup_cons]
    exact ⟨by simp [List.mem_eraseDups], nodup_eraseDups _⟩
termination_by ts.length
decreasing_by exact Nat.lt_succ_of_le (List.length_filter_le _ _)

end Tangle.Text
