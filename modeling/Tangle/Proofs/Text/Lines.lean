import Tangle.Text.Blank
import Tangle.Text.Field
import Tangle.Text.Line
import Mathlib.Data.List.Infix
import Mathlib.Data.List.TakeWhile

namespace Tangle.Text

theorem rawLines_append_cons {line : Text} (h : lf ∉ line) (t : Text) :
    rawLines (line ++ lf :: t) = (line ++ [lf]) :: rawLines t := by
  induction line with
  | nil => simp [rawLines]
  | cons b line ih =>
    simp only [List.mem_cons, not_or] at h
    simp [rawLines, Ne.symm h.1, ih h.2]

theorem rawLines_eq_singleton {line : Text} (hne : line ≠ []) (h : lf ∉ line) :
    rawLines line = [line] := by
  induction line with
  | nil => exact absurd rfl hne
  | cons b line ih =>
    simp only [List.mem_cons, not_or] at h
    cases line with
    | nil => simp [rawLines, Ne.symm h.1]
    | cons c line =>
      rw [rawLines, if_neg (Ne.symm h.1), ih (List.cons_ne_nil c line) h.2]

@[elab_as_elim] theorem lines_induction {motive : Text → Prop} (nil : motive [])
    (last : ∀ line, line ≠ [] → lf ∉ line → motive line)
    (cons : ∀ line t, lf ∉ line → motive t → motive (line ++ lf :: t)) (t : Text) : motive t := by
  induction h : t.length using Nat.strong_induction_on generalizing t with
  | _ n ih =>
    by_cases hlf : lf ∈ t
    · obtain ⟨line, rest, rfl, hline⟩ := List.eq_append_cons_of_mem hlf
      refine cons line rest hline (ih rest.length ?_ rest rfl)
      simp only [List.length_append, List.length_cons] at h
      omega
    · by_cases hne : t = []
      · exact hne ▸ nil
      · exact last t hne hlf

def Ended (t : Text) : Prop := t = [] ∨ t.endsWith [lf] = true

instance (t : Text) : Decidable t.Ended := inferInstanceAs (Decidable (_ ∨ _))

theorem endsWith_iff {t : Text} {b : UInt8} : t.endsWith [b] = true ↔ t.getLast? = some b := by
  rw [endsWith, List.isSuffixOf_iff_suffix, List.getLast?_eq_some_iff]
  constructor
  · rintro ⟨u, rfl⟩
    exact ⟨u, rfl⟩
  · rintro ⟨u, rfl⟩
    exact List.suffix_append u [b]

theorem endsWith_append {u : Text} (h : u ≠ []) (t : Text) (b : UInt8) :
    (t ++ u).endsWith [b] = u.endsWith [b] := by
  rw [Bool.eq_iff_iff, endsWith_iff, endsWith_iff, List.getLast?_append_of_ne_nil t h]

theorem Ended.of_append {t u : Text} (h : (t ++ u).Ended) : u.Ended := by
  by_cases hu : u = []
  · exact .inl hu
  · rcases h with h | h
    · exact .inl (List.append_eq_nil_iff.1 h).2
    · exact .inr (endsWith_append hu t lf ▸ h)

theorem not_ended {line : Text} (hne : line ≠ []) (h : lf ∉ line) : ¬ line.Ended := by
  rintro (hnil | hends)
  · exact hne hnil
  · exact h (List.mem_of_getLast? (endsWith_iff.1 hends))

theorem rawLines_append {t : Text} (h : t.Ended) (u : Text) :
    rawLines (t ++ u) = rawLines t ++ rawLines u := by
  induction t using lines_induction with
  | nil => rfl
  | last line hne hline => exact absurd h (not_ended hne hline)
  | cons line t hline ih =>
    have ht : t.Ended := Ended.of_append (t := line ++ [lf]) (by simpa using h)
    rw [List.append_assoc, List.cons_append, rawLines_append_cons hline,
      rawLines_append_cons hline, ih ht]
    rfl

theorem ne_nil_of_mem_rawLines {t raw : Text} (h : raw ∈ rawLines t) : raw ≠ [] := by
  induction t using lines_induction with
  | nil => cases h
  | last line hne hline =>
    rw [rawLines_eq_singleton hne hline] at h
    rwa [List.mem_singleton.1 h]
  | cons line t hline ih =>
    rw [rawLines_append_cons hline] at h
    cases h with
    | head => simp
    | tail _ h => exact ih h

theorem rawLines_parted {t : Text} {before after : List Text} (h : rawLines t = before ++ after) :
    rawLines before.flatten = before ∧ rawLines after.flatten = after ∧
      (after ≠ [] → Ended before.flatten) := by
  induction t using lines_induction generalizing before with
  | nil =>
    obtain ⟨rfl, rfl⟩ := List.append_eq_nil_iff.1 h.symm
    exact ⟨rfl, rfl, fun h => absurd rfl h⟩
  | last line hne hline =>
    have hlines := rawLines_eq_singleton hne hline
    rw [hlines] at h
    rcases List.append_eq_singleton_iff.1 h.symm with ⟨rfl, rfl⟩ | ⟨rfl, rfl⟩
    · exact ⟨rfl, by simpa using hlines, fun _ => .inl rfl⟩
    · exact ⟨by simpa using hlines, rfl, fun h => absurd rfl h⟩
  | cons line t hline ih =>
    cases before with
    | nil =>
      refine ⟨rfl, ?_, fun _ => .inl rfl⟩
      rw [← List.nil_append after, ← h, flatten_rawLines]
    | cons first before =>
      rw [rawLines_append_cons hline, List.cons_append, List.cons.injEq] at h
      obtain ⟨rfl, h⟩ := h
      obtain ⟨hbefore, hafter, hended⟩ := ih h
      refine ⟨?_, hafter, fun hne => ?_⟩
      · rw [List.flatten_cons, List.append_assoc, List.singleton_append,
          rawLines_append_cons hline, hbefore]
      · rw [List.flatten_cons]
        refine .inr ?_
        by_cases hnil : before.flatten = []
        · simp [hnil, endsWith_iff]
        · rw [endsWith_append hnil]
          exact (hended hne).resolve_left hnil

theorem exists_trimEndWhile_append (p : UInt8 → Bool) (t : Text) :
    ∃ tail, t = t.trimEndWhile p ++ tail ∧ ∀ b ∈ tail, p b = true := by
  refine ⟨(t.reverse.takeWhile p).reverse, ?_, fun b hb => ?_⟩
  · rw [trimEndWhile, ← List.reverse_append, List.takeWhile_append_dropWhile, List.reverse_reverse]
  · exact List.mem_takeWhile_imp (List.mem_reverse.1 hb)

theorem trimEndWhile_isPrefix (p : UInt8 → Bool) (t : Text) : t.trimEndWhile p <+: t := by
  obtain ⟨tail, ht, -⟩ := exists_trimEndWhile_append p t
  exact ⟨tail, ht.symm⟩

theorem field?_subset {t field : Text} (h : field? t = some field) : field ⊆ t := by
  unfold field? at h
  split at h
  next =>
    obtain ⟨b, hb, rfl⟩ := Option.map_eq_some_iff.1 h
    exact List.cons_subset.2 ⟨List.mem_of_getLast? hb, List.nil_subset _⟩
  next hfield =>
    obtain rfl := Option.some.inj h
    exact List.Subset.trans (trimEndWhile_isPrefix _ _).subset (List.dropWhile_suffix _).subset

structure IsField (t : Text) : Prop where
  ne_nil : t ≠ []
  isSpace_head : ∀ b, t.head? = some b → isSpace b = false
  isSpace_last : ∀ b, t.getLast? = some b → isSpace b = false

section Field

variable {t field : Text}

theorem getLast?_trimEndWhile {p : UInt8 → Bool} {b : UInt8}
    (h : (t.trimEndWhile p).getLast? = some b) : p b = false := by
  rw [trimEndWhile, List.getLast?_reverse] at h
  simpa [h] using List.head?_dropWhile_not p t.reverse

theorem isField_trimEndWhile {b : UInt8} (hb : isSpace b = false) (t : Text) :
    IsField (trimEndWhile isSpace (b :: t)) := by
  obtain ⟨ends, hsplit, hends⟩ := exists_trimEndWhile_append isSpace (b :: t)
  have hne : trimEndWhile isSpace (b :: t) ≠ [] := by
    intro hnil
    rw [hnil, List.nil_append] at hsplit
    simp [hends b (hsplit ▸ List.mem_cons_self ..)] at hb
  refine ⟨hne, fun c hc => ?_, fun c => getLast?_trimEndWhile⟩
  have hhead := congrArg List.head? hsplit
  rw [List.head?_append, hc] at hhead
  obtain rfl : b = c := Option.some.inj hhead
  exact hb

namespace IsField

variable {w : Text}

theorem trimEndWhile_append (h : IsField t) (hw : ∀ b ∈ w, isSpace b = true) :
    trimEndWhile isSpace (t ++ w) = t := by
  obtain rfl | ⟨rest, b, rfl⟩ := List.eq_nil_or_concat t
  · exact absurd rfl h.ne_nil
  · have hb := h.isSpace_last b (by simp)
    have hw' : ∀ b ∈ w.reverse, isSpace b = true := fun b hb => hw b (List.mem_reverse.1 hb)
    rw [trimEndWhile, List.reverse_append, List.dropWhile_append_of_pos hw']
    simp [hb]

theorem field?_eq (h : IsField t) (hw : ∀ b ∈ w, isSpace b = true) :
    field? (space :: (t ++ w)) = some t := by
  have hspace : isSpace space = true := rfl
  have hdrop : (space :: (t ++ w)).dropWhile isSpace = t ++ w := by
    obtain ⟨b, rest, rfl⟩ := List.exists_cons_of_ne_nil h.ne_nil
    simp [hspace, h.isSpace_head b rfl]
  rw [field?, hdrop, h.trimEndWhile_append hw]
  cases t with
  | nil => exact absurd rfl h.ne_nil
  | cons b rest => rfl

end IsField

theorem isField_of_field? (h : field? t = some field) (hink : field.all isSpace = false) :
    IsField field ∧ field <:+: t := by
  cases hdrop : t.dropWhile isSpace with
  | nil =>
    have hspace : ∀ b ∈ t, isSpace b = true := by simpa using hdrop
    rw [field?, hdrop] at h
    obtain ⟨b, hb, rfl⟩ := Option.map_eq_some_iff.1 h
    simp [hspace b (List.mem_of_getLast? hb)] at hink
  | cons b rest =>
    have hb : isSpace b = false := by
      have := List.head_dropWhile_not isSpace (l := t) (by simp [hdrop])
      simpa [hdrop] using this
    have hfield := isField_trimEndWhile hb rest
    rw [field?, hdrop] at h
    split at h
    next hnil => exact absurd hnil hfield.ne_nil
    next =>
      obtain rfl := Option.some.inj h
      refine ⟨hfield, (trimEndWhile_isPrefix ..).isInfix.trans ?_⟩
      exact hdrop ▸ (List.dropWhile_suffix _).isInfix

end Field

theorem dropForms_suffix (one : UInt8 → Bool) (two : UInt8 → UInt8 → Bool)
    (three : UInt8 → UInt8 → UInt8 → Bool) (t : Text) : dropForms one two three t <:+ t := by
  fun_induction dropForms one two three t with
  | case1 => exact List.suffix_rfl
  | case2 a t h ih => exact ih.trans (List.suffix_cons a t)
  | case3 a h => exact List.suffix_rfl
  | case4 a h b t h' ih => exact ih.trans ((List.suffix_cons b t).trans (List.suffix_cons a _))
  | case5 a h b h' => exact List.suffix_rfl
  | case6 a h b h' c t h'' ih => exact ih.trans (List.suffix_append [a, b, c] t)
  | case7 a h b h' c t h'' => exact List.suffix_rfl

theorem head?_dropForms {one : UInt8 → Bool} {two : UInt8 → UInt8 → Bool}
    {three : UInt8 → UInt8 → UInt8 → Bool} {t : Text} {b : UInt8}
    (h : (dropForms one two three t).head? = some b) : one b = false := by
  fun_induction dropForms one two three t with
  | case1 => simp at h
  | case2 a t _ ih => exact ih h
  | case3 a ha => simp_all
  | case4 a _ b t _ ih => exact ih h
  | case5 a ha b _ => simp_all
  | case6 a _ b _ c t _ ih => exact ih h
  | case7 a ha b _ c t _ => simp_all

theorem trim_isPrefix (t : Text) : t.trim <+: t.trimStart := by
  rw [← List.reverse_suffix, trim, trimEnd, List.reverse_reverse]
  exact dropForms_suffix ..

theorem trim_infix (t : Text) : t.trim <:+: t := by
  have hstart : t.trimStart <:+ t := dropForms_suffix _ _ _ t
  exact (trim_isPrefix t).isInfix.trans hstart.isInfix

theorem isBlank1_head?_trim {t : Text} {b : UInt8} (h : t.trim.head? = some b) :
    isBlank1 b = false := by
  obtain ⟨rest, hrest⟩ := trim_isPrefix t
  apply head?_dropForms (t := t)
  rw [← trimStart, ← hrest, List.head?_append, h]
  rfl

theorem isBlank1_getLast?_trim {t : Text} {b : UInt8} (h : t.trim.getLast? = some b) :
    isBlank1 b = false := by
  rw [trim, trimEnd, List.getLast?_reverse] at h
  exact head?_dropForms h

theorem trimEndWhile_append {p : UInt8 → Bool} {u : Text} (h : u.trimEndWhile p ≠ []) (t : Text) :
    trimEndWhile p (t ++ u) = t ++ u.trimEndWhile p := by
  have hdrop : (u.reverse.dropWhile p).isEmpty = false := by simpa [trimEndWhile] using h
  simp [trimEndWhile, List.dropWhile_append, hdrop]

theorem startsWith_trimEndWhile {p : UInt8 → Bool} {lead : Text} (h : ∀ b ∈ lead, p b = false)
    (t : Text) : (t.trimEndWhile p).startsWith lead = t.startsWith lead := by
  obtain ⟨tail, ht, htail⟩ := exists_trimEndWhile_append p t
  rw [Bool.eq_iff_iff, startsWith, startsWith, List.isPrefixOf_iff_prefix,
    List.isPrefixOf_iff_prefix]
  constructor
  · intro hlead
    exact hlead.trans (trimEndWhile_isPrefix p t)
  · intro hlead
    rw [ht] at hlead
    rcases List.prefix_or_prefix_of_prefix hlead (List.prefix_append ..) with hprefix | hprefix
    · exact hprefix
    · obtain ⟨excess, rfl⟩ := hprefix
      have hexcess : excess <+: tail := (List.prefix_append_right_inj _).1 hlead
      cases excess with
      | nil => simp
      | cons b excess =>
        have hb := htail b (hexcess.subset (List.mem_cons_self ..))
        simp [h b (by simp)] at hb

theorem startsWith_dropLineEnd {lead : Text} (h : ∀ b ∈ lead, isLineEnd b = false) (raw : Text) :
    raw.dropLineEnd.startsWith lead = raw.startsWith lead :=
  startsWith_trimEndWhile h raw

theorem dropLineEnd_append_lf (t : Text) : (t ++ [lf]).dropLineEnd = t.dropLineEnd := by
  simp [dropLineEnd, trimEndWhile, isLineEnd]

theorem lf_notMem_dropLineEnd {t raw : Text} (h : raw ∈ rawLines t) : lf ∉ raw.dropLineEnd := by
  have hsubset : ∀ line : Text, line.dropLineEnd ⊆ line := fun line =>
    (trimEndWhile_isPrefix isLineEnd line).subset
  induction t using lines_induction with
  | nil => cases h
  | last line hne hline =>
    rw [rawLines_eq_singleton hne hline] at h
    obtain rfl := List.mem_singleton.1 h
    exact fun hlf => hline (hsubset _ hlf)
  | cons line t hline ih =>
    rw [rawLines_append_cons hline] at h
    rcases List.mem_cons.1 h with rfl | h
    · rw [dropLineEnd_append_lf]
      exact fun hlf => hline (hsubset _ hlf)
    · exact ih h

end Tangle.Text
