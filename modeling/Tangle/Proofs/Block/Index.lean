import Tangle.Block.Store
import Mathlib.Data.List.Induction
import Mathlib.Data.List.Sort

namespace Tangle

def Kind.isNamed : Kind → Bool
  | output => false
  | importing => false
  | pull => false
  | _ => true

theorem Block.isSome_name? (b : Block) : b.name?.isSome = b.kind.isNamed := by
  cases b <;> rfl

def Block.Bears (k : Kind) (name : Text) (b : Block) : Prop :=
  b.kind = k ∧ b.name? = some name

namespace Store

variable {s : Store} {i j : s.Id} {k : Kind} {name : Text} {P : Block → Prop}

structure IsLast (s : Store) (P : Block → Prop) (i : s.Id) : Prop where
  get : P (s.get i)
  le : ∀ j, P (s.get j) → j ≤ i

theorem IsLast.unique (h : s.IsLast P i) (h' : s.IsLast P j) : i = j :=
  le_antisymm (h'.le i h.get) (h.le j h'.get)

section Scan

variable {p : Block → Bool}

theorem of_last?_eq_some (h : s.last? p = some i) : p (s.get i) = true :=
  (List.find?_eq_some_iff_append.1 h).1

theorem le_of_last?_eq_some (h : s.last? p = some i) (hj : p (s.get j) = true) : j ≤ i := by
  obtain ⟨-, later, earlier, hsplit, hlater⟩ := List.find?_eq_some_iff_append.1 h
  have hsorted : (later ++ i :: earlier).Pairwise (· > ·) := by
    rw [← hsplit, List.pairwise_reverse]
    exact (List.sortedLT_finRange s.size).pairwise
  have hmem : j ∈ later ++ i :: earlier := hsplit ▸ List.mem_reverse.2 (List.mem_finRange j)
  rcases List.mem_append.1 hmem with hj' | hj'
  · exact absurd (hlater j hj') (by simp [hj])
  · rcases List.mem_cons.1 hj' with rfl | hj'
    · exact le_rfl
    · exact ((List.pairwise_cons.1 (List.pairwise_append.1 hsorted).2.1).1 j hj').le

theorem isLast_of_last? (h : s.last? p = some i) : s.IsLast (p · = true) i :=
  ⟨of_last?_eq_some h, fun _ => le_of_last?_eq_some h⟩

theorem last?_eq_some_iff : s.last? p = some i ↔ s.IsLast (p · = true) i := by
  refine ⟨isLast_of_last?, fun h => ?_⟩
  cases hlast : s.last? p with
  | none =>
    have hnone := List.find?_eq_none.1 hlast i (List.mem_reverse.2 (List.mem_finRange i))
    exact absurd h.get hnone
  | some l => rw [h.unique (isLast_of_last? hlast)]

theorem exists_isLast (h : P (s.get j)) : ∃ i, s.IsLast P i := by
  classical
  cases hlast : s.last? fun b => decide (P b) with
  | none =>
    have hnone := List.find?_eq_none.1 hlast j (List.mem_reverse.2 (List.mem_finRange j))
    exact absurd h (by simpa using hnone)
  | some i => exact ⟨i, by simpa using isLast_of_last? hlast⟩

theorem findFrom?_eq_some_iff {accepts : Text → Bool} :
    s.findFrom? k name accepts = some i ↔
      s.IsLast (fun b => b.Bears k name ∧ accepts b.region.source = true) i := by
  rw [findFrom?, last?_eq_some_iff]
  simp only [Block.Bears, Bool.and_eq_true, beq_iff_eq]

end Scan

section Addition

variable {b : Block} {n : Nat}

theorem get_add_of_lt (h : n < s.size) (h' : n < (s.add b).size) :
    (s.add b).get ⟨n, h'⟩ = s.get ⟨n, h⟩ :=
  List.getElem_append_left h

theorem get_add_size (h : s.size < (s.add b).size) : (s.add b).get ⟨s.size, h⟩ = b :=
  List.getElem_concat_length rfl h

theorem lt_size_add : n < (s.add b).size ↔ n ≤ s.size := by
  have hsize : (s.add b).size = s.size + 1 := List.length_append
  rw [hsize, Nat.lt_succ_iff]

theorem index_add (s : Store) (b : Block) : (s.add b).index = s.index.insert b s.size := by
  simp [index, add, List.zipIdx_append]

theorem of_get_add (hb : ¬ P b) {h : n < (s.add b).size} (hn : P ((s.add b).get ⟨n, h⟩)) :
    ∃ h, P (s.get ⟨n, h⟩) := by
  rcases Nat.lt_or_eq_of_le (lt_size_add.1 h) with hlt | rfl
  · rw [get_add_of_lt hlt] at hn
    exact ⟨hlt, hn⟩
  · rw [get_add_size] at hn
    exact absurd hn hb

theorem isLast_add :
    (∃ h, (s.add b).IsLast P ⟨n, h⟩) ↔ P b ∧ s.size = n ∨ ¬ P b ∧ ∃ h, s.IsLast P ⟨n, h⟩ := by
  have hsize : s.size < (s.add b).size := lt_size_add.2 le_rfl
  by_cases hb : P b
  · simp only [hb, true_and, not_true_eq_false, false_and, or_false]
    constructor
    · rintro ⟨h, hlast⟩
      exact Nat.le_antisymm (hlast.le ⟨s.size, hsize⟩ (by rwa [get_add_size])) (lt_size_add.1 h)
    · rintro rfl
      exact ⟨hsize, by rwa [get_add_size], fun j _ => lt_size_add.1 j.isLt⟩
  · simp only [hb, false_and, not_false_eq_true, true_and, false_or]
    constructor
    · rintro ⟨h, hlast⟩
      obtain ⟨hlt, hn⟩ := of_get_add hb hlast.get
      refine ⟨hlt, hn, fun j hj => ?_⟩
      exact hlast.le ⟨j, lt_size_add.2 j.isLt.le⟩ (by rwa [get_add_of_lt j.isLt])
    · rintro ⟨h, hlast⟩
      refine ⟨lt_size_add.2 h.le, by rw [get_add_of_lt h]; exact hlast.get, fun j hj => ?_⟩
      obtain ⟨hlt, hj⟩ := of_get_add hb hj
      exact hlast.le ⟨j, hlt⟩ hj

theorem index_eq_some_iff :
    s.index k name = some n ↔ ∃ h, s.IsLast (·.Bears k name) ⟨n, h⟩ := by
  obtain ⟨blocks⟩ := s
  induction blocks using List.reverseRecOn with
  | nil => simp [index, Index.empty, size]
  | append_singleton blocks b ih =>
    change (add ⟨blocks⟩ b).index k name = some n ↔
      ∃ h, (add ⟨blocks⟩ b).IsLast (·.Bears k name) ⟨n, h⟩
    rw [isLast_add, ← ih, index_add, Index.insert, Block.Bears]
    split
    next hb => simp [hb]
    next hb => simp [hb]

end Addition

theorem find?_eq_some_iff : s.find? k name = some i ↔ s.IsLast (·.Bears k name) i := by
  have hindex : s.find? k name = some i ↔ s.index k name = some i.1 := by
    unfold find?
    cases s.index k name with
    | none => simp
    | some n =>
      simp only [Option.bind_some, Option.dite_none_right_eq_some, Option.some.injEq, Fin.ext_iff]
      exact ⟨fun ⟨_, h⟩ => h, fun h => ⟨h ▸ i.isLt, h⟩⟩
  rw [hindex, index_eq_some_iff]
  exact ⟨fun ⟨_, h⟩ => h, fun h => ⟨i.isLt, h⟩⟩

theorem find?_eq_findFrom? (s : Store) (k : Kind) (name : Text) :
    s.find? k name = s.findFrom? k name fun _ => true := by
  refine Option.ext fun i => ?_
  simp only [find?_eq_some_iff, findFrom?_eq_some_iff, and_true]

theorem find?_eq_none_of_not_isNamed (h : k.isNamed = false) : s.find? k name = none := by
  refine Option.eq_none_iff_forall_ne_some.2 fun i hi => ?_
  obtain ⟨hkind, hname⟩ := (find?_eq_some_iff.1 hi).get
  have hnamed := (s.get i).isSome_name?
  simp [hkind, hname, h] at hnamed

end Store

end Tangle
