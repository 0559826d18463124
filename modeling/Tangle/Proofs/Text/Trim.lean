import Tangle.Proofs.Text.FileLines
import Tangle.Proofs.Text.Word

namespace Tangle.Text

variable {blank pad pad' : Text}

theorem isForm_reverse (t : Text) :
    isForm isBlank1 (fun b a => isBlank2 a b) (fun c b a => isBlank3 a b c) t.reverse =
      isBlank t := by
  match t with
  | [] | [_] | [_, _] | [_, _, _] => rfl
  | a :: b :: c :: d :: t =>
    have hform : ∀ {one two three} {u : Text}, 3 < u.length → isForm one two three u = false := by
      intro one two three u hu
      unfold isForm
      split <;> simp_all
    rw [hform (by simp)]
    rfl

theorem eq_of_suffix_of_mem_blanks {blank' : Text} (h : blank ∈ blanks) (h' : blank' ∈ blanks)
    (hsuffix : blank <:+ blank') : blank = blank' := by
  obtain ⟨lead, rfl⟩ := hsuffix
  obtain ⟨a, rest, rfl⟩ := List.exists_cons_of_ne_nil (ne_nil_of_mem_blanks h)
  cases lead with
  | nil => rfl
  | cons b lead => exact absurd (by simp) (head_notMem_tail h h')

theorem trimEnd_append (h : blank ∈ blanks) (t : Text) : trimEnd (t ++ blank) = trimEnd t := by
  rw [trimEnd, trimEnd, List.reverse_append]
  refine congrArg List.reverse (dropForms_append ?_ ?_ _)
  · rw [isForm_reverse, isBlank_of_mem h]
  · intro lead hlead hform
    rw [← List.reverse_reverse lead, isForm_reverse] at hform
    rw [← List.reverse_reverse lead, List.reverse_prefix] at hlead
    rw [← eq_of_suffix_of_mem_blanks (mem_blanks_of_isBlank hform) h hlead, List.reverse_reverse]

theorem trimEnd_cases (t : Text) :
    (∃ blank ∈ blanks, ∃ rest, t = rest ++ blank ∧ trimEnd t = trimEnd rest) ∨
      trimEnd t = t := by
  rcases dropForms_cases isBlank1 (fun b a => isBlank2 a b) (fun c b a => isBlank3 a b c)
    t.reverse with ⟨form, rest, hform, ht, hrest⟩ | heq
  · rw [← List.reverse_reverse form, isForm_reverse] at hform
    refine .inl ⟨form.reverse, mem_blanks_of_isBlank hform, rest.reverse, ?_, ?_⟩
    · rw [← List.reverse_append, ← ht, List.reverse_reverse]
    · rw [trimEnd, trimEnd, hrest, List.reverse_reverse]
  · exact .inr (by rw [trimEnd, heq, List.reverse_reverse])

theorem length_trimEnd_le (t : Text) : (trimEnd t).length ≤ t.length := by
  simpa [trimEnd] using (dropForms_suffix _ _ _ t.reverse).length_le

theorem trimEnd_eq_self {t : Text} (h : ∀ blank ∈ blanks, ¬ blank <:+ t) : trimEnd t = t := by
  rcases trimEnd_cases t with ⟨blank, hblank, rest, rfl, -⟩ | heq
  · exact absurd (List.suffix_append rest blank) (h blank hblank)
  · exact heq

theorem trimEnd_append_flatten {tail : List Text} (h : ∀ blank ∈ tail, blank ∈ blanks) (t : Text) :
    trimEnd (t ++ tail.flatten) = trimEnd t := by
  induction tail using List.reverseRecOn with
  | nil => simp
  | append_singleton tail blank ih =>
    rw [List.flatten_concat, ← List.append_assoc, trimEnd_append (h blank (by simp)),
      ih fun b hb => h b (by simp [hb])]

theorem exists_trimEnd (t : Text) :
    ∃ tail : List Text, (∀ blank ∈ tail, blank ∈ blanks) ∧ t = trimEnd t ++ tail.flatten := by
  induction h : t.length using Nat.strong_induction_on generalizing t with
  | _ n ih =>
    rcases trimEnd_cases t with ⟨blank, hblank, rest, rfl, hrest⟩ | heq
    · have hpos := List.length_pos_of_ne_nil (ne_nil_of_mem_blanks hblank)
      rw [List.length_append] at h
      obtain ⟨tail, htail, hsplit⟩ := ih rest.length (by omega) rest rfl
      refine ⟨tail ++ [blank], ?_, ?_⟩
      · simpa [or_imp, forall_and, hblank] using htail
      · rw [hrest, List.flatten_concat, ← List.append_assoc, ← hsplit]
    · exact ⟨[], by simp, by simp [heq]⟩

@[simp] theorem trimStart_trimStart (t : Text) : trimStart (trimStart t) = trimStart t := by
  obtain ⟨lead, hlead, hsplit⟩ := exists_trimStart t
  conv_rhs => rw [hsplit, trimStart_flatten_append hlead]

@[simp] theorem trimEnd_trimEnd (t : Text) : trimEnd (trimEnd t) = trimEnd t := by
  obtain ⟨tail, htail, hsplit⟩ := exists_trimEnd t
  conv_rhs => rw [hsplit, trimEnd_append_flatten htail]

theorem not_prefix_trimStart (h : blank ∈ blanks) (t : Text) : ¬ blank <+: trimStart t := by
  rintro ⟨rest, hrest⟩
  have hpos := List.length_pos_of_ne_nil (ne_nil_of_mem_blanks h)
  have hle : (trimStart rest).length ≤ rest.length := (dropForms_suffix _ _ _ rest).length_le
  have heq := congrArg List.length (trimStart_trimStart t)
  rw [← hrest, trimStart_append h, List.length_append] at heq
  omega

theorem not_suffix_trimEnd (h : blank ∈ blanks) (t : Text) : ¬ blank <:+ trimEnd t := by
  rintro ⟨rest, hrest⟩
  have hpos := List.length_pos_of_ne_nil (ne_nil_of_mem_blanks h)
  have hle := length_trimEnd_le rest
  have heq := congrArg List.length (trimEnd_trimEnd t)
  rw [← hrest, trimEnd_append h, List.length_append] at heq
  omega

theorem trim_append_blank (h : blank ∈ blanks) (t : Text) : trim (t ++ blank) = trim t := by
  obtain ⟨lead, hlead, hsplit⟩ := exists_trimStart t
  have hstart : trimStart (t ++ blank) = trimStart (trimStart t ++ blank) := by
    conv_lhs => rw [hsplit, List.append_assoc, trimStart_flatten_append hlead]
  by_cases hnil : trimStart t = []
  · have hblank : trimStart (blank ++ []) = [] := trimStart_append h []
    rw [trim, trim, hstart, hnil, List.nil_append, ← List.append_nil blank, hblank]
  · -- A blank that starts in the text and ends after it would hold the byte that leads `blank`.
    have hself : trimStart (trimStart t ++ blank) = trimStart t ++ blank := by
      apply trimStart_eq_self
      rw [← Bool.not_eq_true, startsBlank_iff]
      rintro ⟨other, hother, hprefix⟩
      obtain ⟨a, rest, rfl⟩ := List.exists_cons_of_ne_nil (ne_nil_of_mem_blanks h)
      rcases List.prefix_or_prefix_of_prefix hprefix (List.prefix_append ..) with hin | ⟨excess, rfl⟩
      · exact not_prefix_trimStart hother t hin
      · obtain ⟨b, inner, hinner⟩ := List.exists_cons_of_ne_nil hnil
        cases excess with
        | nil => exact not_prefix_trimStart hother t (by simp)
        | cons c excess =>
          obtain rfl : c = a :=
            (List.cons_prefix_cons.1 ((List.prefix_append_right_inj _).1 hprefix)).1
          exact head_notMem_tail h hother (by simp [hinner])
    rw [trim, trim, hstart, hself, trimEnd_append h]

theorem trim_append_flatten {tail : List Text} (h : ∀ blank ∈ tail, blank ∈ blanks) (t : Text) :
    trim (t ++ tail.flatten) = trim t := by
  induction tail using List.reverseRecOn with
  | nil => simp
  | append_singleton tail blank ih =>
    rw [List.flatten_concat, ← List.append_assoc, trim_append_blank (h blank (by simp)),
      ih fun b hb => h b (by simp [hb])]

@[simp] theorem trim_trimStart (t : Text) : trim (trimStart t) = trim t := by
  rw [trim, trim, trimStart_trimStart]

@[simp] theorem trim_trimEnd (t : Text) : trim (trimEnd t) = trim t := by
  obtain ⟨tail, htail, hsplit⟩ := exists_trimEnd t
  conv_rhs => rw [hsplit, trim_append_flatten htail]

@[simp] theorem trim_trim (t : Text) : trim (trim t) = trim t := by
  conv_lhs => rw [trim.eq_def t, trim_trimEnd, trim_trimStart]

theorem exists_flatten_of_trim (h : pad.trim = []) :
    ∃ bs : List Text, (∀ blank ∈ bs, blank ∈ blanks) ∧ pad = bs.flatten := by
  obtain ⟨lead, hlead, hsplit⟩ := exists_trimStart pad
  obtain ⟨tail, htail, hrest⟩ := exists_trimEnd pad.trimStart
  rw [← trim, h, List.nil_append] at hrest
  refine ⟨lead ++ tail, ?_, by rw [List.flatten_append, ← hrest, ← hsplit]⟩
  simpa [or_imp, forall_and] using ⟨hlead, htail⟩

theorem trim_padded (hpad : pad.trim = []) (hpad' : pad'.trim = []) (t : Text) :
    trim (pad ++ t ++ pad') = trim t := by
  obtain ⟨lead, hlead, rfl⟩ := exists_flatten_of_trim hpad
  obtain ⟨tail, htail, rfl⟩ := exists_flatten_of_trim hpad'
  rw [trim_append_flatten htail, trim, trim, trimStart_flatten_append hlead]

/-- A byte that is in no blank keeps the text before it from being trimmed at its end, and the text
after it at its start. -/
theorem trim_append_cons {sep : UInt8} (hsep : ∀ blank ∈ blanks, sep ∉ blank) (t u : Text) :
    trim (t ++ sep :: u) = trimStart t ++ sep :: trimEnd u := by
  have hstart : trimStart (t ++ sep :: u) = trimStart t ++ sep :: u := by
    obtain ⟨lead, hlead, hsplit⟩ := exists_trimStart t
    conv_lhs => rw [hsplit, List.append_assoc, trimStart_flatten_append hlead]
    apply trimStart_eq_self
    rw [← Bool.not_eq_true, startsBlank_iff]
    rintro ⟨blank, hblank, hprefix⟩
    exact not_prefix_trimStart hblank t (prefix_of_prefix_append_cons (hsep blank hblank) hprefix)
  obtain ⟨tail, htail, hsplit⟩ := exists_trimEnd u
  have hend : trimEnd (trimStart t ++ sep :: u) = trimEnd (trimStart t ++ sep :: trimEnd u) := by
    conv_lhs => rw [hsplit, ← List.cons_append, ← List.append_assoc, trimEnd_append_flatten htail]
  rw [trim, hstart, hend]
  apply trimEnd_eq_self
  intro blank hblank hsuffix
  rw [← List.reverse_prefix, List.reverse_append, List.reverse_cons, List.append_assoc,
    List.singleton_append] at hsuffix
  have hlast := prefix_of_prefix_append_cons (by simpa using hsep blank hblank) hsuffix
  exact not_suffix_trimEnd hblank u (List.reverse_prefix.1 hlast)

theorem trim_append_space (t : Text) : trim (t ++ [space]) = trim t :=
  trim_append_blank (by decide +kernel) t

theorem mem_blanks_of_isLineEnd {b : UInt8} (h : isLineEnd b = true) : [b] ∈ blanks := by
  have hends : [cr] ∈ blanks ∧ [lf] ∈ blanks := by decide +kernel
  simp only [isLineEnd, Bool.or_eq_true, beq_iff_eq] at h
  rcases h with rfl | rfl
  · exact hends.1
  · exact hends.2

theorem trim_append_lineEnds {tail : Text} (h : ∀ b ∈ tail, isLineEnd b = true) (t : Text) :
    trim (t ++ tail) = trim t := by
  induction tail generalizing t with
  | nil => rw [List.append_nil]
  | cons b tail ih =>
    rw [List.forall_mem_cons] at h
    rw [← List.singleton_append, ← List.append_assoc, ih h.2,
      trim_append_blank (mem_blanks_of_isLineEnd h.1)]

theorem trim_dropLineEnd (raw : Text) : raw.dropLineEnd.trim = raw.trim := by
  obtain ⟨tail, hraw, htail⟩ := exists_trimEndWhile_append isLineEnd raw
  conv_rhs => rw [hraw]
  exact (trim_append_lineEnds htail _).symm

theorem trim_dropFinalLf (raw : Text) : raw.dropFinalLf.trim = raw.trim := by
  by_cases hends : raw.endsWith [lf] = true
  · obtain ⟨line, rfl⟩ := List.getLast?_eq_some_iff.1 (endsWith_iff.1 hends)
    rw [dropFinalLf_append_lf]
    have hlf : ∀ b ∈ [lf], isLineEnd b = true := List.forall_mem_singleton.2 rfl
    exact (trim_append_lineEnds hlf line).symm
  · rw [dropFinalLf, if_neg hends]

end Tangle.Text
