import Tangle.Extract
import Tangle.Proofs.Text.FileLines
import Tangle.Proofs.Write.Splice

namespace Tangle.Extract

open Text

def numbered (lines : List Text) (first last : Int) : List Text :=
  ((lines.zipIdx 1).filter fun x => first ≤ x.2 ∧ x.2 ≤ last).map Prod.fst

def slice? (lines : List Text) (start stop : Int) : Option (List Text) :=
  if 0 ≤ start ∧ start ≤ stop ∧ stop ≤ lines.length then
    some ((lines.take stop.toNat).drop start.toNat)
  else none

def firstOf (start : Int) : Int := if start = 0 then 1 else start

def lastOf (count : Nat) (stop : Int) : Int := if stop = 0 ∨ stop > count then count else stop

theorem map_filter_zipIdx (lines : List Text) (n : Nat) (first last : Int) :
    ((lines.zipIdx n).filter fun x => first ≤ x.2 ∧ x.2 ≤ last).map Prod.fst =
      (lines.take (last + 1 - n).toNat).drop (first - n).toNat := by
  induction lines generalizing n with
  | nil => simp
  | cons line lines ih =>
    have hrest := ih (n + 1)
    by_cases hlast : last < n
    · have htake : (last + 1 - n).toNat = 0 := by omega
      have htake' : (last + 1 - (n + 1 : Nat)).toNat = 0 := by omega
      rw [htake'] at hrest
      rw [htake, List.zipIdx_cons, List.filter_cons_of_neg (by simp; omega), hrest]
      simp
    · have htake : (last + 1 - n).toNat = (last + 1 - (n + 1 : Nat)).toNat + 1 := by omega
      rw [htake, List.take_succ_cons]
      by_cases hfirst : first ≤ n
      · have hdrop : (first - n).toNat = 0 := by omega
        have hdrop' : (first - (n + 1 : Nat)).toNat = 0 := by omega
        rw [hdrop'] at hrest
        rw [hdrop, List.zipIdx_cons, List.filter_cons_of_pos (by simp; omega), List.map_cons, hrest]
        rfl
      · have hdrop : (first - n).toNat = (first - (n + 1 : Nat)).toNat + 1 := by omega
        rw [hdrop, List.drop_succ_cons, List.zipIdx_cons, List.filter_cons_of_neg (by simp; omega),
          hrest]

theorem numbered_eq (lines : List Text) (first last : Int) :
    numbered lines first last = (lines.take last.toNat).drop (first - 1).toNat := by
  rw [numbered, map_filter_zipIdx]
  simp

theorem lastOf_le (count : Nat) (stop : Int) : lastOf count stop ≤ count := by
  unfold lastOf
  split <;> omega

section Range

variable {lines : List Text} {start stop : Int}

theorem slice?_eq (h : 1 ≤ firstOf start ∧ firstOf start ≤ lastOf lines.length stop) :
    slice? lines (firstOf start - 1) (lastOf lines.length stop) =
      some (numbered lines (firstOf start) (lastOf lines.length stop)) := by
  have hlast := lastOf_le lines.length stop
  rw [slice?, if_pos (by omega), numbered_eq]

theorem range_eq (lines : List Text) (start stop : Int) (file : Text) :
    range lines start stop file =
      if 1 ≤ firstOf start ∧ firstOf start ≤ lastOf lines.length stop then
        .ok (unlines (numbered lines (firstOf start) (lastOf lines.length stop)))
      else if lines = [] ∧ firstOf start = 1 then .ok []
      else .error (.invalidRange file (firstOf start) (lastOf lines.length stop) lines.length) := by
  by_cases h : 1 ≤ firstOf start ∧ firstOf start ≤ lastOf lines.length stop
  · have haccepted : ¬ (firstOf start < 1 ∨ firstOf start > lastOf lines.length stop) := by omega
    have hdrop : (firstOf start - 1).toNat = (firstOf start).toNat - 1 := by omega
    rw [if_pos h, numbered_eq, hdrop]
    exact if_neg haccepted
  · have hrefused : firstOf start < 1 ∨ firstOf start > lastOf lines.length stop := by omega
    simp only [← List.length_eq_zero_iff]
    rw [if_neg h]
    exact if_pos hrefused

theorem range_between {first last : Int} (hfirst : 1 ≤ first) (hle : first ≤ last)
    (hlast : last ≤ lines.length) (file : Text) :
    range lines first last file = .ok (unlines (numbered lines first last)) := by
  have hfirst' : firstOf first = first := if_neg (by omega)
  have hlast' : lastOf lines.length last = last := if_neg (by omega)
  rw [range_eq, hfirst', hlast', if_pos ⟨hfirst, hle⟩]

theorem numbered_all (lines : List Text) : numbered lines 1 lines.length = lines := by
  simp [numbered_eq]

theorem range_all (lines : List Text) (file : Text) :
    range lines 0 0 file = .ok (unlines lines) := by
  have hfirst : firstOf 0 = 1 := rfl
  have hlast : lastOf lines.length 0 = lines.length := if_pos (.inl rfl)
  rw [range_eq, hfirst, hlast, numbered_all]
  cases lines with
  | nil => rfl
  | cons line lines => exact if_pos ⟨le_rfl, by simp only [List.length_cons]; omega⟩

end Range

theorem unlines_of_linesOf {t : Text} {lines : List Text} (h : LinesOf t lines) :
    unlines lines = Patch.withLf (unixEnds t) := by
  induction h with
  | nil => rfl
  | last hne hline =>
    rw [unixEnds_eq_self hline, Patch.withLf_eq_append hne hline]
    exact unlines_singleton _
  | cons hline hcr _ ih =>
    rw [unixEnds_append_lf hline hcr, Patch.withLf_append_cons, ← ih, unlines_cons]
  | crlf hline _ ih =>
    rw [unixEnds_append_crlf hline, Patch.withLf_append_cons, ← ih, unlines_cons]

theorem numbered_append (lines : List Text) (k : Nat) :
    numbered lines 1 k ++ numbered lines (k + 1) lines.length = lines := by
  simp [numbered_eq]

/-- A range is read as the lines that it numbers, and one that numbers no line is refused unless the
file is empty. The ranges on both sides of a line end make up the text, with its ends made alike. -/
theorem fetch_range {files : Files.Tree} {base : Base} {path content : Text}
    (hread : files.read (base.resolve path) = .ok content) :
    ∃ lines, LinesOf content lines ∧
      (∀ start stop,
        (1 ≤ firstOf start ∧ firstOf start ≤ lastOf lines.length stop →
          slice? lines (firstOf start - 1) (lastOf lines.length stop) =
            some (numbered lines (firstOf start) (lastOf lines.length stop))) ∧
        fetch files base ⟨path, start, stop, []⟩ =
          if 1 ≤ firstOf start ∧ firstOf start ≤ lastOf lines.length stop then
            .ok (unlines (numbered lines (firstOf start) (lastOf lines.length stop)))
          else if content = [] ∧ firstOf start = 1 then .ok []
          else .error (.invalidRange (base.resolve path) (firstOf start) (lastOf lines.length stop)
            lines.length)) ∧
      fetch files base ⟨path, 0, 0, []⟩ = .ok (Patch.withLf (unixEnds content)) ∧
      ∀ k : Nat, 1 ≤ k → k < lines.length → ∃ head tail,
        fetch files base ⟨path, 1, k, []⟩ = .ok head ∧
        fetch files base ⟨path, k + 1, lines.length, []⟩ = .ok tail ∧
        fetch files base ⟨path, 0, 0, []⟩ = .ok (head ++ tail) := by
  obtain ⟨lines, hlines⟩ := exists_linesOf content
  have hfetch : ∀ start stop, fetch files base ⟨path, start, stop, []⟩ =
      range lines start stop (base.resolve path) := by
    intro start stop
    simp [fetch, hread, hlines.fileLines_eq]
  refine ⟨lines, hlines, fun start stop => ⟨slice?_eq, ?_⟩, ?_, fun k hk hkn => ?_⟩
  · rw [hfetch, range_eq]
    simp only [hlines.eq_nil_iff]
  · rw [hfetch, range_all, unlines_of_linesOf hlines]
  · refine ⟨_, _, (hfetch ..).trans (range_between ?_ ?_ ?_ _),
      (hfetch ..).trans (range_between ?_ ?_ ?_ _), ?_⟩
    any_goals omega
    rw [hfetch, range_all, ← unlines_append, numbered_append]

def notes : Files.Tree where
  medium := .memory
  entries := [("/", .directory), ("/proj", .directory), ("/proj/n.txt", .file "a\r\n\n\r\r\nb")]

theorem fetch_range_notes :
    notes.read (Base.resolve ⟨"/proj"⟩ "n.txt") = .ok "a\r\n\n\r\r\nb" ∧
      ∃ lines, LinesOf "a\r\n\n\r\r\nb" lines ∧ lines.length = 4 ∧ ∃ head tail,
        fetch notes ⟨"/proj"⟩ ⟨"n.txt", 1, 3, []⟩ = .ok head ∧
        fetch notes ⟨"/proj"⟩ ⟨"n.txt", 4, 4, []⟩ = .ok tail ∧
        fetch notes ⟨"/proj"⟩ ⟨"n.txt", 0, 0, []⟩ = .ok (head ++ tail) := by
  have hread : notes.read (Base.resolve ⟨"/proj"⟩ "n.txt") = .ok "a\r\n\n\r\r\nb" := by decide
  obtain ⟨lines, hlines, -, -, hsplit⟩ := fetch_range hread
  have hlength : lines.length = 4 := by
    rw [← hlines.fileLines_eq]
    decide
  obtain ⟨head, tail, hhead, htail, hwhole⟩ := hsplit 3 (by decide) (by omega)
  rw [hlength] at htail
  exact ⟨hread, lines, hlines, hlength, head, tail, hhead, htail, hwhole⟩

end Tangle.Extract
