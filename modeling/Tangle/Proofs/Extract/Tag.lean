import Tangle.Extract
import Tangle.Proofs.Text.Parts
import Tangle.Proofs.Text.Word
import Mathlib.Data.List.Basic

namespace Tangle.Extract

open Text

def answer : Except Failure Text → Text × Option Failure
  | .ok text => (text, none)
  | .error f => (f.captured, some f)

def Marks (tag line : Text) : Prop :=
  ∃ before after, line = before ++ tagMark ++ after ∧ IsFirstWord tag after

theorem marks_iff_of_cut {tag line before rest : Text}
    (h : cut tagMark line = some (before, rest)) :
    Marks tag line ↔ IsFirstWord tag rest ∨ Marks tag rest := by
  constructor
  · rintro ⟨before', after, hline, hword⟩
    rcases exists_occurrence_after_cut (by decide) h hline with rfl | ⟨between, hrest⟩
    · exact .inl hword
    · exact .inr ⟨between, after, hrest, hword⟩
  · have hline := cut_eq_some h
    rintro (hword | ⟨between, after, rfl, hword⟩)
    · exact ⟨before, rest, hline, hword⟩
    · exact ⟨before ++ tagMark ++ between, after, by simp [hline], hword⟩

theorem isTagMarker_iff {tag line : Text} : isTagMarker tag line = true ↔ Marks tag line := by
  fun_induction isTagMarker tag line with
  | case1 line hcut =>
    refine ⟨fun h => (nomatch h), ?_⟩
    rintro ⟨before, after, rfl, -⟩
    have hsome := isSome_cut_of_infix (List.infix_append before tagMark after)
    rw [hcut] at hsome
    cases hsome
  | case2 line before rest hcut ih =>
    rw [marks_iff_of_cut hcut, ← ih, isFirstWord_iff]
    simp only [Bool.or_eq_true, Bool.and_eq_true, decide_eq_true_eq, beq_iff_eq]
    refine or_congr_left ⟨?_, ?_⟩
    · rintro ⟨hne, rfl⟩
      exact ⟨hne, rfl⟩
    · rintro ⟨hne, rfl⟩
      exact ⟨hne, rfl⟩

instance (tag line : Text) : Decidable (Marks tag line) := decidable_of_iff _ isTagMarker_iff

theorem isTagMarker_eq_false_iff {tag line : Text} :
    isTagMarker tag line = false ↔ ¬ Marks tag line := by
  rw [← Bool.not_eq_true, isTagMarker_iff]

section Tagged

variable {tag : Text} {before between after : List Text} {first second : Text}

theorem tagged_of_unmarked {lines : List Text} (h : ∀ line ∈ lines, ¬ Marks tag line)
    (file : Text) : tagged lines tag file = .error (.tagNotFound file tag) := by
  have hdrop : lines.dropWhile (!isTagMarker tag ·) = [] := by
    simpa [List.dropWhile_eq_nil_iff, isTagMarker_eq_false_iff] using h
  rw [tagged, hdrop]

theorem tagged_append_cons (hbefore : ∀ line ∈ before, ¬ Marks tag line) (hfirst : Marks tag first)
    (after : List Text) (file : Text) :
    tagged (before ++ first :: after) tag file =
      if after.any (isTagMarker tag) then .ok (unlines (after.takeWhile (!isTagMarker tag ·)))
      else .error (.tagNotClosed file tag (unlines (after.takeWhile (!isTagMarker tag ·)))) := by
  have hdrop : (before ++ first :: after).dropWhile (!isTagMarker tag ·) = first :: after := by
    rw [List.dropWhile_append_of_pos]
    · simp [isTagMarker_iff.2 hfirst]
    · simpa [isTagMarker_eq_false_iff] using hbefore
  rw [tagged, hdrop]

theorem tagged_of_one (hbefore : ∀ line ∈ before, ¬ Marks tag line) (hfirst : Marks tag first)
    (hafter : ∀ line ∈ after, ¬ Marks tag line) (file : Text) :
    tagged (before ++ first :: after) tag file =
      .error (.tagNotClosed file tag (unlines after)) := by
  have hany : after.any (isTagMarker tag) = false := by
    simpa [isTagMarker_eq_false_iff] using hafter
  have htake : after.takeWhile (!isTagMarker tag ·) = after := by
    simpa [List.takeWhile_eq_self_iff, isTagMarker_eq_false_iff] using hafter
  rw [tagged_append_cons hbefore hfirst, hany, htake]
  rfl

theorem tagged_of_two (hbefore : ∀ line ∈ before, ¬ Marks tag line) (hfirst : Marks tag first)
    (hbetween : ∀ line ∈ between, ¬ Marks tag line) (hsecond : Marks tag second)
    (after : List Text) (file : Text) :
    tagged (before ++ first :: (between ++ second :: after)) tag file = .ok (unlines between) := by
  have hany : (between ++ second :: after).any (isTagMarker tag) = true := by
    simp [isTagMarker_iff.2 hsecond]
  have htake : (between ++ second :: after).takeWhile (!isTagMarker tag ·) = between := by
    rw [List.takeWhile_append_of_pos]
    · simp [isTagMarker_iff.2 hsecond]
    · simpa [isTagMarker_eq_false_iff] using hbetween
  rw [tagged_append_cons hbefore hfirst, hany, htake]
  rfl

end Tagged

theorem exists_first_marked (tag : Text) (lines : List Text) :
    (∀ line ∈ lines, ¬ Marks tag line) ∨ ∃ before first after, lines = before ++ first :: after ∧
      (∀ line ∈ before, ¬ Marks tag line) ∧ Marks tag first := by
  cases hfind : lines.find? (Marks tag ·) with
  | none => exact .inl (by simpa using hfind)
  | some first =>
    obtain ⟨hfirst, before, after, hlines, hbefore⟩ := List.find?_eq_some_iff_append.1 hfind
    exact .inr ⟨before, first, after, hlines, by simpa using hbefore, by simpa using hfirst⟩

theorem findIdxs_append_cons {tag first : Text} {before : List Text}
    (hbefore : ∀ line ∈ before, ¬ Marks tag line) (hfirst : Marks tag first) (after : List Text) :
    (before ++ first :: after).findIdxs (Marks tag ·) =
      before.length :: (after.findIdxs (Marks tag ·)).map (· + (before.length + 1)) := by
  have hnone : before.findIdxs (Marks tag ·) = [] := by
    simpa [List.findIdxs_eq_nil_iff] using hbefore
  rw [List.findIdxs_append, hnone, List.nil_append, List.findIdxs_cons, Nat.zero_add,
    if_pos (decide_eq_true hfirst), List.findIdxs_start]

/-- What is read of a tagged part, by the numbers of the lines that mark the tag. -/
theorem answer_tagged (lines : List Text) (tag file : Text) :
    answer (tagged lines tag file) =
      match lines.findIdxs (Marks tag ·) with
      | [] => ([], some (.tagNotFound file tag))
      | [i] => (unlines (lines.drop (i + 1)),
          some (.tagNotClosed file tag (unlines (lines.drop (i + 1)))))
      | i :: j :: _ => (unlines ((lines.take j).drop (i + 1)), none) := by
  rcases exists_first_marked tag lines with hnone | ⟨before, first, after, rfl, hbefore, hfirst⟩
  · have hmarked : lines.findIdxs (Marks tag ·) = [] := by
      simpa [List.findIdxs_eq_nil_iff] using hnone
    rw [hmarked, tagged_of_unmarked hnone]
    rfl
  · rw [findIdxs_append_cons hbefore hfirst]
    rcases exists_first_marked tag after with
      hnone | ⟨between, second, rest, rfl, hbetween, hsecond⟩
    · have hmarked : after.findIdxs (Marks tag ·) = [] := by
        simpa [List.findIdxs_eq_nil_iff] using hnone
      rw [hmarked, tagged_of_one hbefore hfirst hnone]
      simp [answer, Failure.captured]
    · rw [findIdxs_append_cons hbetween hsecond, tagged_of_two hbefore hfirst hbetween hsecond]
      have htake : (before ++ first :: (between ++ second :: rest)).take
          (between.length + (before.length + 1)) = before ++ first :: between := by
        rw [← List.cons_append, ← List.append_assoc]
        exact List.take_left' (by simp only [List.length_append, List.length_cons]; omega)
      simp [answer, htake]

example : answer (tagged ["lit-tag: a_b", "x", "lit-tag:a", "y", "lit-tag: b lit-tag: a"] "a" "f") =
    (ofString "y\n", none) := by
  decide +kernel

end Tangle.Extract
