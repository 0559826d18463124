import Mathlib.Data.List.Perm.Basic
import Mathlib.Data.List.Sort
import Tangle.Proofs.Text.Parts
import Tangle.Scan

namespace Tangle.Scan

section Part

variable {α κ : Type} [DecidableEq κ]

theorem perm_flatMap_filter {keys : List κ} (hkeys : keys.Nodup) (f : α → κ) {l : List α}
    (h : ∀ a ∈ l, f a ∈ keys) : (keys.flatMap fun k => l.filter (f · = k)).Perm l := by
  induction keys generalizing l with
  | nil =>
    obtain rfl := List.eq_nil_iff_forall_not_mem.2 fun a ha => List.not_mem_nil (h a ha)
    exact .nil
  | cons k keys ih =>
    obtain ⟨hk, hkeys⟩ := List.nodup_cons.1 hkeys
    -- The other parts are those of the list without the first part.
    have hothers : (keys.flatMap fun k' => l.filter (f · = k')) =
        keys.flatMap fun k' => (l.filter (! f · = k)).filter (f · = k') := by
      refine List.flatMap_congr fun k' hk' => ?_
      have hne : k' ≠ k := fun heq => hk (heq ▸ hk')
      rw [List.filter_filter]
      refine List.filter_congr fun a _ => ?_
      by_cases ha : f a = k' <;> simp [ha, hne]
    have hrest : ∀ a ∈ l.filter (! f · = k), f a ∈ keys := by
      intro a ha
      obtain ⟨hmem, hne⟩ := List.mem_filter.1 ha
      exact (List.mem_cons.1 (h a hmem)).resolve_left (by simpa using hne)
    rw [List.flatMap_cons, hothers]
    exact ((ih hkeys hrest).append_left _).trans (List.filter_append_perm _ l)

end Part

section Names

theorem pairwise_mergeSort {α : Type} [LE α] [DecidableLE α]
    (htrans : ∀ a b c : α, a ≤ b → b ≤ c → a ≤ c) (htotal : ∀ a b : α, a ≤ b ∨ b ≤ a)
    (l : List α) : (l.mergeSort fun a b => decide (a ≤ b)).Pairwise (· ≤ ·) := by
  refine List.Pairwise.imp of_decide_eq_true (List.pairwise_mergeSort ?_ ?_ l)
  · intro a b c hab hbc
    exact decide_eq_true (htrans a b c (of_decide_eq_true hab) (of_decide_eq_true hbc))
  · intro a b
    simpa using htotal a b

variable {entries : List (List Text)} {name : Text}

theorem mem_firstNames : name ∈ firstNames entries ↔ ∃ rest, name :: rest ∈ entries := by
  rw [firstNames, List.mem_mergeSort, List.mem_eraseDups, List.mem_filterMap]
  constructor
  · rintro ⟨entry, hentry, hhead⟩
    obtain ⟨rest, rfl⟩ := List.head?_eq_some_iff.1 hhead
    exact ⟨rest, hentry⟩
  · rintro ⟨rest, hentry⟩
    exact ⟨_, hentry, rfl⟩

theorem nodup_firstNames (entries : List (List Text)) : (firstNames entries).Nodup :=
  (List.mergeSort_perm _ _).nodup_iff.2 (Text.nodup_eraseDups _)

theorem pairwise_firstNames (entries : List (List Text)) :
    (firstNames entries).Pairwise (· < ·) := by
  have hle : (firstNames entries).Pairwise (· ≤ ·) :=
    pairwise_mergeSort (fun _ _ _ => List.le_trans) List.le_total _
  refine (hle.and (nodup_firstNames entries)).imp fun ⟨hab, hne⟩ => ?_
  exact List.not_le.1 fun hba => hne (List.le_antisymm hab hba)

theorem map_cons_inside (name : Text) (entries : List (List Text)) :
    (inside name entries).map (name :: ·) = entries.filter (·.head? = some name) := by
  rw [inside, List.map_filterMap, ← List.filterMap_eq_filter]
  refine List.filterMap_congr fun entry _ => ?_
  cases entry with
  | nil => simp [below?, Option.guard]
  | cons a rest =>
    simp only [below?, Option.guard, List.head?_cons, Option.some.injEq, eq_comm (a := a)]
    by_cases h : name = a <;> simp [h]

end Names

theorem depthFirst_eq (entries : List (List Text)) :
    depthFirst entries = entries.filter (· = []) ++ (firstNames entries).flatMap fun name =>
      (depthFirst (inside name entries)).map (name :: ·) := by
  rw [depthFirst]
  conv_rhs => rw [← List.attach_map_subtype_val (firstNames entries), List.flatMap_map]

theorem depthFirst_perm (entries : List (List Text)) : (depthFirst entries).Perm entries := by
  induction entries using depthFirst.induct with
  | case1 entries ih =>
    have hkeys : (none :: (firstNames entries).map some).Nodup :=
      List.nodup_cons.2 ⟨by simp, (nodup_firstNames entries).map (Option.some_injective _)⟩
    have hheads : ∀ entry ∈ entries, entry.head? ∈ none :: (firstNames entries).map some := by
      intro entry hentry
      cases entry with
      | nil => exact List.mem_cons_self ..
      | cons name rest =>
        exact List.mem_cons_of_mem _ (List.mem_map_of_mem (mem_firstNames.2 ⟨rest, hentry⟩))
    have hpart : ∀ name ∈ firstNames entries, ((depthFirst (inside name entries)).map
        (name :: ·)).Perm (entries.filter (·.head? = some name)) := by
      intro name hname
      rw [← map_cons_inside]
      exact (ih name hname).map _
    calc depthFirst entries
      _ = entries.filter (· = []) ++ (firstNames entries).flatMap fun name =>
          (depthFirst (inside name entries)).map (name :: ·) := depthFirst_eq entries
      _ |>.Perm (entries.filter (· = []) ++ (firstNames entries).flatMap fun name =>
          entries.filter (·.head? = some name)) :=
        (List.Perm.flatMap_left _ hpart).append_left _
      _ = (none :: (firstNames entries).map some).flatMap fun key =>
          entries.filter (·.head? = key) := by
        simp only [List.flatMap_cons, List.flatMap_map, List.head?_eq_none_iff]
      _ |>.Perm entries := perm_flatMap_filter hkeys List.head? hheads

theorem pairwise_depthFirst (entries : List (List Text)) :
    (depthFirst entries).Pairwise (· ≤ ·) := by
  induction entries using depthFirst.induct with
  | case1 entries ih =>
    rw [depthFirst_eq, List.pairwise_append, List.pairwise_flatMap]
    refine ⟨?_, ⟨fun name hname => ?_, ?_⟩, fun a ha b _ => ?_⟩
    · refine List.pairwise_of_forall_mem_list fun a ha b _ => ?_
      obtain rfl : a = [] := by simpa using (List.mem_filter.1 ha).2
      exact List.nil_le b
    · refine List.pairwise_map.2 ((ih name hname).imp fun hab => ?_)
      exact List.cons_le_cons_iff.2 (.inr ⟨rfl, hab⟩)
    · -- What lies inside of different names is told apart by them.
      refine (pairwise_firstNames entries).imp fun hlt a ha b hb => ?_
      obtain ⟨rest, -, rfl⟩ := List.mem_map.1 ha
      obtain ⟨rest', -, rfl⟩ := List.mem_map.1 hb
      exact List.cons_le_cons_iff.2 (.inl hlt)
    · obtain rfl : a = [] := by simpa using (List.mem_filter.1 ha).2
      exact List.nil_le b

/-- The walk is the one order of the entries that goes by their names. -/
theorem depthFirst_eq_mergeSort (entries : List (List Text)) :
    depthFirst entries = entries.mergeSort fun a b => decide (a ≤ b) := by
  refine List.Perm.eq_of_pairwise (fun _ _ _ _ => List.le_antisymm) (pairwise_depthFirst entries)
    ?_ ((depthFirst_perm entries).trans (List.mergeSort_perm _ _).symm)
  exact pairwise_mergeSort (fun _ _ _ => List.le_trans) List.le_total entries

end Tangle.Scan
