import Tangle.Files.Tree

namespace Tangle.Files.Tree

variable {t t' : Tree} {p q text content : Text} {e : Entry}

theorem obstacle?_set (h : t.get? p = some e) (content q : Text) :
    (t.set p { e with content }).obstacle? q = t.obstacle? q := by
  unfold obstacle?
  congr 1
  funext dir
  rw [get?_set]
  split
  next hkey =>
    have hdir : t.get? dir = some e := by rw [get?, hkey, ← get?, h]
    simp [hdir]
  next => rfl

theorem obstacle?_congr (h : ∀ dir ∈ ancestors q,
      (t'.get? dir).any (!·.isDirectory) = (t.get? dir).any (!·.isDirectory)) :
    t'.obstacle? q = t.obstacle? q := by
  unfold obstacle?
  revert h
  induction ancestors q with
  | nil => exact fun _ => rfl
  | cons dir dirs ih =>
    intro h
    rw [List.forall_mem_cons] at h
    rw [List.find?_cons, List.find?_cons, h.1, ih h.2]

theorem onDisk_eq_ok {call : Call} :
    t.onDisk call p = .ok e ↔ t.obstacle? p = none ∧ t.get? p = some e := by
  unfold onDisk
  cases t.obstacle? p <;> cases t.get? p <;> simp

theorem inMemory_eq_ok : t.inMemory p = .ok e ↔ t.get? p = some e := by
  unfold inMemory
  cases t.get? p <;> simp

theorem stat_eq_ok :
    t.stat p = .ok e ↔ Denials.covers t.denied.stat p = false ∧ t.get? p = some e ∧
      (t.medium = .disk → t.obstacle? p = none) := by
  unfold stat
  cases Denials.covers t.denied.stat p with
  | true => simp
  | false =>
    cases t.medium with
    | memory => simp [inMemory_eq_ok]
    | disk => simp [onDisk_eq_ok, and_comm]

theorem exists?_iff : t.exists? p = true ↔ Denials.covers t.denied.stat p = false ∧
    (t.get? p).isSome = true ∧ (t.medium = .disk → t.obstacle? p = none) := by
  have hok : t.exists? p = true ↔ ∃ e, t.stat p = .ok e := by
    unfold exists?
    cases t.stat p <;> simp [Except.isOk, Except.toBool]
  simp only [hok, stat_eq_ok, Option.isSome_iff_exists, exists_and_left, exists_and_right]

theorem listing_eq_ok : t.listing p = .ok () ↔ Denials.covers t.denied.read p = false := by
  unfold listing
  cases Denials.covers t.denied.read p <;> simp

theorem read_eq_ok :
    t.read p = .ok text ↔ Denials.covers t.denied.read p = false ∧
      ∃ e, t.get? p = some e ∧ e.content = text ∧
        (t.medium = .disk → t.obstacle? p = none ∧ e.isDirectory = false) := by
  unfold read
  cases Denials.covers t.denied.read p with
  | true => simp
  | false =>
    cases t.medium with
    | memory => cases h : t.inMemory p <;> simp [← inMemory_eq_ok, h, Except.map]
    | disk =>
      simp only [Bool.false_eq_true, if_false, true_and, forall_const]
      constructor
      · intro h
        split at h
        next => simp at h
        next e he =>
          split at h
          next => simp at h
          next hdir =>
            obtain ⟨hobstacle, hget⟩ := onDisk_eq_ok.1 he
            exact ⟨e, hget, Except.ok.inj h, hobstacle, by simpa using hdir⟩
      · rintro ⟨e, hget, rfl, hobstacle, hdir⟩
        simp [onDisk_eq_ok.2 ⟨hobstacle, hget⟩, hdir]

theorem eq_place_of_write (h : t.write p content = .ok t') : t' = t.place p (.file content) := by
  unfold write at h
  split at h
  next => simp at h
  next =>
    split at h
    next => exact (Except.ok.inj h).symm
    next =>
      split at h
      next =>
        split at h
        next => simp at h
        next => exact (Except.ok.inj h).symm
      next =>
        split at h
        next => exact (Except.ok.inj h).symm
        next => simp at h

theorem read_write (hread : t.read p = .ok text) (hwrite : t.write p content = .ok t') :
    t'.read p = .ok content := by
  obtain ⟨hdenied, e, he, -, hdisk⟩ := read_eq_ok.1 hread
  have hset : t' = t.set p { e with content } := by
    simp [eq_place_of_write hwrite, place, he, Entry.file]
  rw [hset]
  refine read_eq_ok.2 ⟨hdenied, _, get?_set_self .., rfl, fun hmedium => ?_⟩
  rw [obstacle?_set he]
  exact hdisk hmedium

end Tangle.Files.Tree
