import Tangle.Proofs.Expansion.Memo
import Tangle.Proofs.Expansion.Remainder

namespace Tangle.Expansion.Context

open Text

variable (ctx : Context)

theorem linesDialogue_append (line : Nat) (lines lines' : List Text) :
    ctx.linesDialogue line (lines ++ lines') =
      (ctx.linesDialogue line lines).bind fun r =>
        (ctx.linesDialogue (line + lines.length) lines').bind fun r' =>
          .done (r.1 ++ r'.1, r.2 + r'.2) := by
  induction lines generalizing line with
  | nil => simp [linesDialogue, Dialogue.bind, Dialogue.bind_done]
  | cons text rest ih =>
    simp only [List.cons_append, linesDialogue, ih, Dialogue.bind_assoc, Dialogue.bind,
      List.length_cons, Nat.add_assoc, Nat.add_comm 1]

variable {ctx} {c : ctx.store.Id → Except Failure Text} {t u out : Text}

section Number

variable {indent : Text} {n : Nat} (m : Nat)

theorem eval_segmentDialogue_renumber {segment : Segment} {r : Text × Nat}
    (h : (ctx.segmentDialogue indent n segment).eval c = .ok r) :
    (ctx.segmentDialogue indent m segment).eval c = .ok r := by
  cases segment with
  | byte b => exact h
  | token run =>
    simp only [segmentDialogue] at h ⊢
    cases hfind : ctx.find? (tokenName run) with
    | none =>
      rw [hfind] at h
      dsimp only at h ⊢
      split at h
      next => simp [Dialogue.eval] at h
      next hpolicy => rwa [if_neg hpolicy]
    | some i => rwa [hfind] at h

theorem eval_segmentsDialogue_renumber {parts : List Segment} {r : Text × Nat}
    (h : (ctx.segmentsDialogue indent n parts).eval c = .ok r) :
    (ctx.segmentsDialogue indent m parts).eval c = .ok r := by
  induction parts generalizing r with
  | nil => exact h
  | cons segment rest ih =>
    obtain ⟨r₁, hsegment, h⟩ := Dialogue.eval_bind_eq_ok.1 h
    obtain ⟨r₂, hrest, h⟩ := Dialogue.eval_bind_eq_ok.1 h
    exact Dialogue.eval_bind_eq_ok.2 ⟨r₁, eval_segmentDialogue_renumber m hsegment,
      Dialogue.eval_bind_eq_ok.2 ⟨r₂, ih hrest, h⟩⟩

theorem eval_linesDialogue_renumber {lines : List Text} {r : List Text × Nat}
    (h : (ctx.linesDialogue n lines).eval c = .ok r) :
    (ctx.linesDialogue m lines).eval c = .ok r := by
  induction lines generalizing n m r with
  | nil => exact h
  | cons text rest ih =>
    obtain ⟨r₁, htext, h⟩ := Dialogue.eval_bind_eq_ok.1 h
    obtain ⟨r₂, hrest, h⟩ := Dialogue.eval_bind_eq_ok.1 h
    exact Dialogue.eval_bind_eq_ok.2 ⟨r₁, eval_segmentsDialogue_renumber m htext,
      Dialogue.eval_bind_eq_ok.2 ⟨r₂, ih (m + 1) hrest, h⟩⟩

end Number

def Passes (ctx : Context) (c : ctx.store.Id → Except Failure Text) (text : Text) (r : Text × Nat) :
    Prop :=
  ∃ lines, (ctx.linesDialogue 1 (split lf text)).eval c = .ok (lines, r.2) ∧ r.1 = join [lf] lines

theorem passes_append {r : Text × Nat} :
    ctx.Passes c (t ++ lf :: u) r ↔
      ∃ r₁ r₂, ctx.Passes c t r₁ ∧ ctx.Passes c u r₂ ∧ r = (r₁.1 ++ lf :: r₂.1, r₁.2 + r₂.2) := by
  have hjoin : ∀ {lines lines' : List Text} {n m : Nat},
      (ctx.linesDialogue 1 (split lf t)).eval c = .ok (lines, n) →
      (ctx.linesDialogue 1 (split lf u)).eval c = .ok (lines', m) →
        join [lf] (lines ++ lines') = join [lf] lines ++ lf :: join [lf] lines' := by
    intro lines lines' n m h h'
    rw [join_append _ ((ctx.always_ne_nil_linesDialogue 1 (split_ne_nil lf t)).of_eval h)
      ((ctx.always_ne_nil_linesDialogue 1 (split_ne_nil lf u)).of_eval h')]
    simp
  unfold Passes
  rw [split_append_cons, linesDialogue_append]
  constructor
  · rintro ⟨lines, h, hr⟩
    obtain ⟨⟨l₁, n₁⟩, h₁, h⟩ := Dialogue.eval_bind_eq_ok.1 h
    obtain ⟨⟨l₂, n₂⟩, h₂, h⟩ := Dialogue.eval_bind_eq_ok.1 h
    have h₂ := eval_linesDialogue_renumber 1 h₂
    obtain ⟨rfl, hn⟩ := Prod.mk.inj (Except.ok.inj h)
    refine ⟨(join [lf] l₁, n₁), (join [lf] l₂, n₂), ⟨l₁, h₁, rfl⟩, ⟨l₂, h₂, rfl⟩, ?_⟩
    exact Prod.ext (hr.trans (hjoin h₁ h₂)) hn.symm
  · rintro ⟨⟨_, n₁⟩, ⟨_, n₂⟩, ⟨l₁, h₁, rfl⟩, ⟨l₂, h₂, rfl⟩, rfl⟩
    refine ⟨l₁ ++ l₂, ?_, (hjoin h₁ h₂).symm⟩
    exact Dialogue.eval_bind_eq_ok.2 ⟨_, h₁,
      Dialogue.eval_bind_eq_ok.2 ⟨_, eval_linesDialogue_renumber _ h₂, rfl⟩⟩

theorem eval_passesDialogue_one :
    (ctx.passesDialogue 1 t).eval c = .ok out ↔ ctx.Passes c t (out, 0) := by
  unfold Passes
  constructor
  · intro h
    obtain ⟨⟨lines, n⟩, hlines, h⟩ := Dialogue.eval_bind_eq_ok.1 h
    cases n with
    | zero => exact ⟨lines, hlines, (Except.ok.inj h).symm⟩
    | succ n => simp [passesDialogue, Dialogue.eval] at h
  · rintro ⟨lines, hlines, rfl⟩
    exact Dialogue.eval_bind_eq_ok.2 ⟨_, hlines, rfl⟩

theorem eval_passesDialogue_succ {passes : Nat} :
    (ctx.passesDialogue (passes + 2) t).eval c = .ok out ↔
      ∃ r, ctx.Passes c t r ∧ (ctx.passesDialogue (passes + 1) r.1).eval c = .ok out := by
  have hagain : ∀ {lines}, (ctx.linesDialogue 1 (split lf t)).eval c = .ok (lines, 0) →
      (ctx.passesDialogue (passes + 1) (join [lf] lines)).eval c = .ok (join [lf] lines) := by
    intro lines hlines
    obtain ⟨rfl, hleaves⟩ := (ctx.linesDialogue_unchanged 1 _).of_eval hlines rfl
    rw [join_split]
    exact (yields_passesDialogue hleaves passes).eval c
  constructor
  · intro h
    obtain ⟨⟨lines, n⟩, hlines, h⟩ := Dialogue.eval_bind_eq_ok.1 h
    refine ⟨(join [lf] lines, n), ⟨lines, hlines, rfl⟩, ?_⟩
    cases n with
    | zero =>
      obtain rfl := Except.ok.inj h
      exact hagain hlines
    | succ n => exact h
  · rintro ⟨⟨_, n⟩, ⟨lines, hlines, rfl⟩, h⟩
    refine Dialogue.eval_bind_eq_ok.2 ⟨(lines, n), hlines, ?_⟩
    cases n with
    | zero =>
      rw [hagain hlines] at h
      exact h
    | succ n => exact h

theorem eval_passesDialogue_append {passes : Nat} :
    (ctx.passesDialogue passes (t ++ lf :: u)).eval c = .ok out ↔
      ∃ out₁ out₂, (ctx.passesDialogue passes t).eval c = .ok out₁ ∧
        (ctx.passesDialogue passes u).eval c = .ok out₂ ∧ out = out₁ ++ lf :: out₂ := by
  induction passes generalizing t u with
  | zero => simp [passesDialogue, Dialogue.eval]
  | succ passes ih =>
    cases passes with
    | zero =>
      simp only [Nat.zero_add, eval_passesDialogue_one, passes_append]
      constructor
      · rintro ⟨⟨out₁, n₁⟩, ⟨out₂, n₂⟩, h₁, h₂, heq⟩
        obtain ⟨rfl, hn⟩ := Prod.mk.inj heq
        obtain ⟨rfl, rfl⟩ : n₁ = 0 ∧ n₂ = 0 := Nat.add_eq_zero_iff.1 hn.symm
        exact ⟨out₁, out₂, h₁, h₂, rfl⟩
      · rintro ⟨out₁, out₂, h₁, h₂, rfl⟩
        exact ⟨_, _, h₁, h₂, rfl⟩
    | succ passes =>
      simp only [eval_passesDialogue_succ, passes_append]
      constructor
      · rintro ⟨_, ⟨r₁, r₂, h₁, h₂, rfl⟩, h⟩
        obtain ⟨out₁, out₂, hout₁, hout₂, rfl⟩ := ih.1 h
        exact ⟨out₁, out₂, ⟨r₁, h₁, hout₁⟩, ⟨r₂, h₂, hout₂⟩, rfl⟩
      · rintro ⟨out₁, out₂, ⟨r₁, h₁, hout₁⟩, ⟨r₂, h₂, hout₂⟩, rfl⟩
        exact ⟨_, ⟨r₁, r₂, h₁, h₂, rfl⟩, ih.2 ⟨out₁, out₂, hout₁, hout₂, rfl⟩⟩

/-- Two texts with an `LF` between them can be expanded just when each of them can, and they are
expanded to the two outcomes with an `LF` between them. -/
theorem resolve_linewise (ctx : Context) (hstore : ctx.store.ColonFree) (t u out : Text) :
    (ctx.resolve [] (t ++ lf :: u)).1 = .ok out ↔
      ∃ out₁ out₂, (ctx.resolve [] t).1 = .ok out₁ ∧ (ctx.resolve [] u).1 = .ok out₂ ∧
        out = out₁ ++ lf :: out₂ := by
  simp only [fst_resolve hstore .start]
  exact eval_passesDialogue_append

theorem resolve_linewise_joining :
    (joining .keep).store.ColonFree ∧
      ((joining .keep).resolve [] (placeholder "b" ++ lf :: (placeholder "a" ++ closing))).1 =
        .ok "1\n2\nx\n1\n2" ∧
      ∃ out₁ out₂, ((joining .keep).resolve [] (placeholder "b")).1 = .ok out₁ ∧
        ((joining .keep).resolve [] (placeholder "a" ++ closing)).1 = .ok out₂ ∧
        Text.ofString "1\n2\nx\n1\n2" = out₁ ++ lf :: out₂ := by
  have hout : ((joining .keep).resolve []
      (placeholder "b" ++ lf :: (placeholder "a" ++ closing))).1 = .ok "1\n2\nx\n1\n2" := by
    decide +kernel
  exact ⟨by decide, hout, (resolve_linewise (joining .keep) (by decide) _ _ _).1 hout⟩

end Tangle.Expansion.Context
