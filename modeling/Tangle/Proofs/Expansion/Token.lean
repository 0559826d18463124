import Tangle.Expansion.Token
import Tangle.Proofs.Text.Parts
import Mathlib.Data.List.Infix
import Mathlib.Data.List.TakeWhile

namespace Tangle.Expansion

open Text

structure IsRun (run : Text) : Prop where
  ne_nil : run ≠ []
  isBrace_eq_false : ∀ b ∈ run, isBrace b = false

theorem token?_eq_some_iff {t run after : Text} :
    token? t = some (run, after) ↔ t = (Segment.token run).text ++ after ∧ IsRun run := by
  constructor
  · intro h
    refine ⟨token?_eq_some h, ?_⟩
    simp only [token?] at h
    split at h
    next => simp at h
    next rest _ =>
      split at h
      next => simp at h
      next hne =>
        obtain ⟨r, -, heq⟩ := Option.map_eq_some_iff.1 h
        obtain rfl : rest.takeWhile (!isBrace ·) = run := (Prod.mk.inj heq).1
        refine ⟨hne, fun b hb => ?_⟩
        simpa using List.mem_takeWhile_imp hb
  · rintro ⟨rfl, hrun⟩
    have hall : ∀ b ∈ run, (!isBrace b) = true := by
      intro b hb
      simp [hrun.isBrace_eq_false b hb]
    have htake : (run ++ (closing ++ after)).takeWhile (!isBrace ·) = run := by
      rw [List.takeWhile_append_of_pos hall]
      simp [closing, isBrace]
    have hdrop : (run ++ (closing ++ after)).dropWhile (!isBrace ·) = closing ++ after := by
      rw [List.dropWhile_append_of_pos hall]
      simp [closing, isBrace]
    simp only [token?, Segment.text, List.append_assoc, after?_append, htake, hdrop,
      if_neg hrun.ne_nil, Option.map_some]

theorem IsRun.cons_ne_append {run : Text} (h : IsRun run) (rest rest' : Text) :
    run ++ rest ≠ 123 :: rest' := by
  intro heq
  cases hrun : run with
  | nil => exact h.ne_nil hrun
  | cons b run' =>
    rw [hrun, List.cons_append, List.cons.injEq] at heq
    have := h.isBrace_eq_false b (by simp [hrun])
    simp [heq.1, isBrace] at this

theorem token?_append_token {before : Text} (hne : before ≠ []) (h : token? before = none)
    (run after : Text) : token? (before ++ (Segment.token run).text ++ after) = none := by
  by_contra hsome
  obtain ⟨⟨run', after'⟩, hsome⟩ := Option.ne_none_iff_exists'.1 hsome
  obtain ⟨heq, hrun'⟩ := token?_eq_some_iff.1 hsome
  simp only [Segment.text, opening, List.append_assoc, List.cons_append, List.nil_append] at heq
  -- The two openings overlap in two braces or in one, or the first is over before the second.
  rcases before with _ | ⟨a, _ | ⟨b, _ | ⟨c, rest⟩⟩⟩
  · exact hne rfl
  · simp only [List.cons_append, List.nil_append, List.cons.injEq, true_and] at heq
    exact hrun'.cons_ne_append _ _ heq.2.symm
  · simp only [List.cons_append, List.nil_append, List.cons.injEq, true_and] at heq
    exact hrun'.cons_ne_append _ _ heq.2.2.symm
  · simp only [List.cons_append, List.cons.injEq] at heq
    obtain ⟨rfl, rfl, rfl, heq⟩ := heq
    have hends : ∀ more, rest ≠ run' ++ closing ++ more := by
      rintro more rfl
      have htext : 123 :: 123 :: 123 :: (run' ++ closing ++ more) =
          (Segment.token run').text ++ more := by simp [Segment.text, opening]
      rw [htext, token?_eq_some_iff.2 ⟨rfl, hrun'⟩] at h
      simp at h
    rw [← List.append_assoc run' closing after'] at heq
    rcases List.append_eq_append_iff.1 heq with ⟨_ | ⟨x, xs⟩, hxs, htoken⟩ | ⟨more, hmore, -⟩
    · exact hends [] (by simpa using hxs.symm)
    · simp only [List.cons_append, List.cons.injEq] at htoken
      have hmem : (123 : UInt8) ∈ run' ++ closing := by
        rw [hxs, htoken.1]
        simp
      rcases List.mem_append.1 hmem with hmem | hmem
      · simpa [isBrace] using hrun'.isBrace_eq_false 123 hmem
      · simp [closing] at hmem
    · exact hends more hmore

theorem segments_of_token? {t run after : Text} (h : token? t = some (run, after)) :
    segments t = .token run :: segments after := by
  cases t with
  | nil => simp [token?, after?, opening] at h
  | cons b rest =>
    rw [segments]
    split
    next run' after' h' =>
      rw [h] at h'
      simp only [Option.some.injEq, Prod.mk.injEq] at h'
      rw [h'.1, h'.2]
    next h' => simp [h] at h'

theorem segments_cons {b : UInt8} {rest : Text} (h : token? (b :: rest) = none) :
    segments (b :: rest) = .byte b :: segments rest := by
  rw [segments]
  split
  next h' => simp [h] at h'
  next => rfl

theorem segments_cons_of_not_isBrace {b : UInt8} (h : isBrace b = false) (rest : Text) :
    segments (b :: rest) = .byte b :: segments rest := by
  refine segments_cons (Option.eq_none_iff_forall_ne_some.2 ?_)
  rintro ⟨run, after⟩ htoken
  obtain ⟨rfl, -⟩ := List.cons.inj (token?_eq_some htoken)
  simp [isBrace] at h

theorem not_isBrace_of_isIndent {b : UInt8} (h : isIndent b = true) : isBrace b = false := by
  rcases (by simpa [isIndent] using h : b = space ∨ b = tab) with rfl | rfl <;> rfl

theorem segments_append_of_not_isBrace {w : Text} (h : ∀ b ∈ w, isBrace b = false) (t : Text) :
    segments (w ++ t) = w.map .byte ++ segments t := by
  induction w with
  | nil => rfl
  | cons b w ih =>
    obtain ⟨hb, hw⟩ := List.forall_mem_cons.1 h
    rw [List.cons_append, segments_cons_of_not_isBrace hb, ih hw]
    rfl

theorem segments_append_token {run : Text} (hrun : IsRun run) (before after : Text) :
    segments (before ++ (Segment.token run).text ++ after) =
      segments before ++ .token run :: segments after := by
  fun_induction segments before with
  | case1 => exact segments_of_token? (token?_eq_some_iff.2 ⟨rfl, hrun⟩)
  | case2 b rest run' after' h ih =>
    obtain ⟨heq, hrun'⟩ := token?_eq_some_iff.1 h
    have htoken : token? (b :: rest ++ (Segment.token run).text ++ after) =
        some (run', after' ++ (Segment.token run).text ++ after) :=
      token?_eq_some_iff.2 ⟨by simp [heq], hrun'⟩
    rw [segments_of_token? htoken, ih]
    rfl
  | case3 b rest h ih =>
    have hnone := token?_append_token (List.cons_ne_nil b rest) h run after
    rw [List.cons_append, List.cons_append] at hnone ⊢
    rw [segments_cons hnone, ih]
    rfl

theorem isRun_of_mem_segments {line run : Text} (h : .token run ∈ segments line) : IsRun run := by
  fun_induction segments line with
  | case1 => simp at h
  | case2 b rest run' after' htoken ih =>
    cases h with
    | head => exact (token?_eq_some_iff.1 htoken).2
    | tail _ h => exact ih h
  | case3 b rest htoken ih =>
    cases h with
    | tail _ h => exact ih h

theorem token_mem_segments_iff {line run : Text} :
    .token run ∈ segments line ↔ IsRun run ∧ (Segment.token run).text <:+: line := by
  constructor
  · intro h
    refine ⟨isRun_of_mem_segments h, ?_⟩
    obtain ⟨before, after, hsplit⟩ := List.append_of_mem h
    refine ⟨before.flatMap Segment.text, after.flatMap Segment.text, ?_⟩
    rw [← flatMap_text_segments line, hsplit]
    simp
  · rintro ⟨hrun, before, after, rfl⟩
    rw [segments_append_token hrun]
    simp

end Tangle.Expansion
