import Tangle.Proofs.Text.Lines
import Tangle.Proofs.Text.Parts

namespace Tangle.Text

inductive LinesOf : Text → List Text → Prop
  | nil : LinesOf [] []
  | last {line : Text} (hne : line ≠ []) (hline : lf ∉ line) : LinesOf line [line]
  | cons {line t : Text} {lines : List Text} (hline : lf ∉ line) (hcr : line.getLast? ≠ some cr)
      (ht : LinesOf t lines) : LinesOf (line ++ lf :: t) (line :: lines)
  | crlf {line t : Text} {lines : List Text} (hline : lf ∉ line) (ht : LinesOf t lines) :
      LinesOf (line ++ cr :: lf :: t) (line :: lines)

variable {line t : Text}

theorem unixEnds_append (hline : lf ∉ line) (hcr : line.getLast? = some cr → t.head? ≠ some lf) :
    unixEnds (line ++ t) = line ++ unixEnds t := by
  induction line with
  | nil => rfl
  | cons b line ih =>
    simp only [List.mem_cons, not_or] at hline
    cases line with
    | nil =>
      have hkeep : ¬ (b = cr ∧ t.head? = some lf) := by
        rintro ⟨rfl, hhead⟩
        exact hcr rfl hhead
      simp [unixEnds, hkeep]
    | cons c line =>
      have hc : c ≠ lf := by
        rintro rfl
        simp at hline
      have hrest := ih hline.2 (by simpa using hcr)
      simp only [List.cons_append] at hrest ⊢
      rw [unixEnds, hrest]
      simp [hc]

theorem unixEnds_eq_self (h : lf ∉ t) : unixEnds t = t := by
  have happend := unixEnds_append (t := []) h (by simp)
  simpa [unixEnds] using happend

@[simp] theorem unixEnds_lf (t : Text) : unixEnds (lf :: t) = lf :: unixEnds t :=
  if_neg fun h => absurd h.1 (by decide)

@[simp] theorem unixEnds_crlf (t : Text) : unixEnds (cr :: lf :: t) = lf :: unixEnds t := by
  rw [unixEnds, if_pos ⟨rfl, rfl⟩, unixEnds_lf]

theorem unixEnds_append_lf (hline : lf ∉ line) (hcr : line.getLast? ≠ some cr) (t : Text) :
    unixEnds (line ++ lf :: t) = line ++ lf :: unixEnds t := by
  rw [unixEnds_append hline fun h => absurd h hcr, unixEnds_lf]

theorem unixEnds_append_crlf (hline : lf ∉ line) (t : Text) :
    unixEnds (line ++ cr :: lf :: t) = line ++ lf :: unixEnds t := by
  have hhead : (cr :: lf :: t).head? ≠ some lf := by
    rw [List.head?_cons]
    decide
  rw [unixEnds_append hline fun _ => hhead, unixEnds_crlf]

theorem dropFinalLf_eq_self (h : lf ∉ t) : dropFinalLf t = t := by
  refine if_neg fun hends => h ?_
  exact List.mem_of_getLast? (endsWith_iff.1 hends)

theorem dropFinalLf_append_lf (line : Text) : dropFinalLf (line ++ [lf]) = line := by
  simp [dropFinalLf, endsWith_iff]

theorem dropFinalLf_append {u : Text} (h : u ≠ []) (t : Text) :
    dropFinalLf (t ++ u) = t ++ dropFinalLf u := by
  rw [dropFinalLf, dropFinalLf, endsWith_append h, List.dropLast_append_of_ne_nil h]
  split <;> rfl

/-- Raw lines are the parts between line ends; after a final line end there is an empty part more. -/
theorem map_dropFinalLf_rawLines (t : Text) : t.rawLines.map dropFinalLf <+: t.split lf := by
  induction t using lines_induction with
  | nil => exact List.nil_prefix
  | last line hne hline =>
    rw [rawLines_eq_singleton hne hline, split_eq_singleton hline, List.map_singleton,
      dropFinalLf_eq_self hline]
  | cons line t hline ih =>
    rw [rawLines_append_cons hline, split_append_cons, split_eq_singleton hline, List.map_cons,
      dropFinalLf_append_lf]
    exact (List.prefix_cons_inj line).2 ih

theorem fileLines_eq_cons {t' : Text} (hline : lf ∉ line)
    (h : unixEnds t' = line ++ lf :: unixEnds t) : fileLines t' = line :: fileLines t := by
  have hsplit : fileLines t' = split lf (dropFinalLf (line ++ lf :: unixEnds t)) := by
    rw [fileLines, h]
    cases line <;> rfl
  rw [hsplit, fileLines]
  cases hrest : unixEnds t with
  | nil => rw [dropFinalLf_append_lf, split_eq_singleton hline]
  | cons b u =>
    rw [← List.singleton_append, ← List.append_assoc, dropFinalLf_append (List.cons_ne_nil b u),
      List.append_assoc, List.singleton_append, split_append_cons, split_eq_singleton hline]
    rfl

theorem LinesOf.eq_nil_iff {lines : List Text} (h : LinesOf t lines) : lines = [] ↔ t = [] := by
  cases h with
  | nil => simp
  | last hne _ => simpa using hne
  | cons => simp
  | crlf => simp

theorem LinesOf.fileLines_eq {lines : List Text} (h : LinesOf t lines) : fileLines t = lines := by
  induction h with
  | nil => rfl
  | @last line hne hline =>
    obtain ⟨b, rest, rfl⟩ := List.exists_cons_of_ne_nil hne
    rw [fileLines, unixEnds_eq_self hline]
    dsimp only
    rw [dropFinalLf_eq_self hline, split_eq_singleton hline]
  | cons hline hcr _ ih => rw [fileLines_eq_cons hline (unixEnds_append_lf hline hcr _), ih]
  | crlf hline _ ih => rw [fileLines_eq_cons hline (unixEnds_append_crlf hline _), ih]

theorem exists_linesOf (t : Text) : ∃ lines, LinesOf t lines := by
  induction t using lines_induction with
  | nil => exact ⟨[], .nil⟩
  | last line hne hline => exact ⟨[line], .last hne hline⟩
  | cons line t hline ih =>
    obtain ⟨lines, hlines⟩ := ih
    by_cases hcr : line.getLast? = some cr
    · obtain ⟨line, rfl⟩ := List.getLast?_eq_some_iff.1 hcr
      have hline : lf ∉ line := fun h => hline (List.mem_append_left _ h)
      rw [List.append_assoc, List.singleton_append]
      exact ⟨line :: lines, .crlf hline hlines⟩
    · exact ⟨line :: lines, .cons hline hcr hlines⟩

theorem unlines_cons (line : Text) (lines : List Text) :
    unlines (line :: lines) = line ++ lf :: unlines lines := by
  simp [unlines]

theorem unlines_singleton (line : Text) : unlines [line] = line ++ [lf] := unlines_cons line []

theorem unlines_append (lines lines' : List Text) :
    unlines (lines ++ lines') = unlines lines ++ unlines lines' :=
  List.flatMap_append

theorem split_unlines {lines : List Text} (h : ∀ line ∈ lines, lf ∉ line) :
    split lf (unlines lines) = lines ++ [[]] := by
  induction lines with
  | nil => rfl
  | cons line lines ih =>
    rw [List.forall_mem_cons] at h
    rw [unlines_cons, split_append_cons, split_eq_singleton h.1, ih h.2]
    rfl

end Tangle.Text
