import Tangle.Selection
import Mathlib.Data.List.Basic
import Mathlib.Data.Set.Basic

namespace Tangle.Selection

variable {base : Base} {included ignored : List Text} {out : Output}

def named (base : Base) (paths : List Text) : Set Text :=
  {file | ∃ p ∈ paths, base.resolve p = file}

structure Chosen (base : Base) (included ignored : List Text) (out : Output) : Prop where
  included : included = [] ∨ base.resolve out.path ∈ named base included ∨
    base.resolve out.source ∈ named base included
  path_not_ignored : base.resolve out.path ∉ named base ignored
  source_not_ignored : base.resolve out.source ∉ named base ignored

/-- Keeps what is included, then drops what has an ignored target, then what is from an ignored
document. An empty list makes no pass. -/
def applyInPasses (base : Base) (included ignored : List Text) (outputs : List Output) :
    List Output :=
  let kept := if included = [] then outputs else outputs.filter (mentions base included)
  if ignored = [] then kept
  else (kept.filter (!lists base ignored ·.path)).filter (!lists base ignored ·.source)

theorem lists_iff_mem_named {paths : List Text} {p : Text} :
    lists base paths p = true ↔ base.resolve p ∈ named base paths := by
  rw [lists, List.contains_iff_mem, List.mem_map]
  rfl

theorem lists_eq_false_iff {paths : List Text} {p : Text} :
    lists base paths p = false ↔ base.resolve p ∉ named base paths := by
  rw [← Bool.not_eq_true, lists_iff_mem_named]

theorem chosen_iff : ((included.isEmpty || mentions base included out) &&
    !mentions base ignored out) = true ↔ Chosen base included ignored out := by
  simp only [mentions, Bool.and_eq_true, Bool.or_eq_true, Bool.not_eq_true', Bool.or_eq_false_iff,
    List.isEmpty_iff, lists_iff_mem_named, lists_eq_false_iff]
  exact ⟨fun ⟨h, hpath, hsource⟩ => ⟨h, hpath, hsource⟩,
    fun ⟨h, hpath, hsource⟩ => ⟨h, hpath, hsource⟩⟩

instance (base : Base) (included ignored : List Text) (out : Output) :
    Decidable (Chosen base included ignored out) := decidable_of_iff _ chosen_iff

theorem apply_eq_filter (base : Base) (included ignored : List Text) (outputs : List Output) :
    apply base included ignored outputs = outputs.filter (Chosen base included ignored ·) := by
  refine List.filter_congr fun out _ => ?_
  rw [Bool.eq_iff_iff, chosen_iff, decide_eq_true_eq]

theorem applyInPasses_eq (base : Base) (included ignored : List Text) (outputs : List Output) :
    applyInPasses base included ignored outputs = apply base included ignored outputs := by
  have hincluded : (if included = [] then outputs else outputs.filter (mentions base included)) =
      outputs.filter fun out => included.isEmpty || mentions base included out := by
    split
    next h => exact (List.filter_eq_self.2 fun out _ => by simp [h]).symm
    next h => simp [List.isEmpty_eq_false_iff.2 h]
  have hignored : ∀ kept : List Output, (if ignored = [] then kept
      else (kept.filter (!lists base ignored ·.path)).filter (!lists base ignored ·.source)) =
      kept.filter fun out => !mentions base ignored out := by
    intro kept
    split
    next h => exact (List.filter_eq_self.2 fun out _ => by simp [h, mentions, lists]).symm
    next =>
      rw [List.filter_filter]
      exact List.filter_congr fun out _ => by rw [mentions, Bool.not_or, Bool.and_comm]
  rw [applyInPasses, hincluded, hignored, List.filter_filter, apply]
  exact List.filter_congr fun out _ => Bool.and_comm ..

theorem named_eq_empty_iff {paths : List Text} : named base paths = ∅ ↔ paths = [] := by
  constructor
  · intro h
    cases paths with
    | nil => rfl
    | cons p paths =>
      have hp : base.resolve p ∈ named base (p :: paths) := ⟨p, List.mem_cons_self .., rfl⟩
      rw [h] at hp
      cases hp
  · rintro rfl
    simp [named]

theorem chosen_congr {included' ignored' : List Text}
    (hincluded : named base included' = named base included)
    (hignored : named base ignored' = named base ignored) :
    Chosen base included' ignored' out ↔ Chosen base included ignored out := by
  have hempty : included' = [] ↔ included = [] :=
    calc
      included' = [] ↔ named base included' = ∅ := named_eq_empty_iff.symm
      _ ↔ named base included = ∅ := by rw [hincluded]
      _ ↔ included = [] := named_eq_empty_iff
  constructor
  · rintro ⟨h, hpath, hsource⟩
    exact ⟨by rwa [hempty, hincluded] at h, hignored ▸ hpath, hignored ▸ hsource⟩
  · rintro ⟨h, hpath, hsource⟩
    exact ⟨by rwa [hempty, hincluded], hignored.symm ▸ hpath, hignored.symm ▸ hsource⟩

theorem Chosen.of_subset {ignored' : List Text} (h : Chosen base included ignored' out)
    (hignored : named base ignored ⊆ named base ignored') : Chosen base included ignored out :=
  ⟨h.included, fun hpath => h.path_not_ignored (hignored hpath),
    fun hsource => h.source_not_ignored (hignored hsource)⟩

theorem filter_apply (p : Output → Bool) (outputs : List Output) :
    (apply base included ignored outputs).filter p =
      apply base included ignored (outputs.filter p) :=
  List.filter_comm ..

theorem narrow_apply (target pattern : Text) (outputs : List Output) :
    narrow base target pattern (apply base included ignored outputs) =
      (narrow base target pattern outputs).map (apply base included ignored) := by
  unfold narrow
  split
  next => exact congrArg Except.ok (filter_apply ..)
  next =>
    cases Regex.parse pattern with
    | error e => rfl
    | ok r => exact congrArg Except.ok (filter_apply ..)

theorem exists_narrow {pattern : Text} (h : pattern = [] ∨ ∃ r, Regex.parse pattern = .ok r)
    (target : Text) (outputs : List Output) :
    ∃ kept, narrow base target pattern outputs = .ok kept := by
  rcases h with rfl | ⟨r, hr⟩
  · exact ⟨_, rfl⟩
  · unfold narrow
    rw [hr]
    split <;> exact ⟨_, rfl⟩

theorem apply_chooses (base : Base) (included ignored : List Text) (outputs : List Output) :
    apply base included ignored outputs = outputs.filter (Chosen base included ignored ·) ∧
      applyInPasses base included ignored outputs = apply base included ignored outputs ∧
      apply base included ignored (apply base included ignored outputs) =
        apply base included ignored outputs ∧
      (∀ included' ignored', named base included' = named base included →
        named base ignored' = named base ignored →
        apply base included' ignored' outputs = apply base included ignored outputs) ∧
      (∀ ignored', named base ignored ⊆ named base ignored' →
        (apply base included ignored' outputs).Sublist (apply base included ignored outputs)) ∧
      ∀ target pattern, pattern = [] ∨ (∃ r, Regex.parse pattern = .ok r) →
        ∃ kept, narrow base target pattern outputs = .ok kept ∧
          narrow base target pattern (apply base included ignored outputs) =
            .ok (apply base included ignored kept) := by
  refine ⟨apply_eq_filter .., applyInPasses_eq .., ?_, ?_, ?_, ?_⟩
  · rw [apply_eq_filter, apply_eq_filter, List.filter_filter]
    simp
  · intro included' ignored' hincluded hignored
    rw [apply_eq_filter, apply_eq_filter]
    exact List.filter_congr fun out _ => decide_eq_decide.2 (chosen_congr hincluded hignored)
  · intro ignored' hignored
    rw [apply_eq_filter, apply_eq_filter]
    refine List.monotone_filter_right outputs fun out hout => ?_
    exact decide_eq_true ((of_decide_eq_true hout).of_subset hignored)
  · intro target pattern hpattern
    obtain ⟨kept, hkept⟩ := exists_narrow hpattern target outputs
    exact ⟨kept, hkept, by rw [narrow_apply, hkept]; rfl⟩

end Tangle.Selection
