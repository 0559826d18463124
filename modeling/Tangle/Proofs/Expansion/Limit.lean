import Tangle.Proofs.Expansion.Remainder
import Tangle.Proofs.Expansion.Memo

namespace Tangle.Expansion

open Text

def Failure.IsLimit : Failure → Prop
  | limit _ _ => True
  | _ => False

@[simp] theorem Failure.isLimit_within (f : Failure) : f.within.IsLimit ↔ f.IsLimit := by
  cases f <;> rfl

def RunsOut {α : Type} (result : Except Failure α) : Prop :=
  ∃ f, result = .error f ∧ f.IsLimit

@[simp] theorem runsOut_error {α : Type} (f : Failure) :
    RunsOut (.error f : Except Failure α) ↔ f.IsLimit := by
  simp [RunsOut]

@[simp] theorem not_runsOut_ok {α : Type} (a : α) : ¬ RunsOut (.ok a) := by
  simp [RunsOut]

namespace Dialogue

variable {s : Store} {α β σ : Type}

/-- The second dialogue is the first, but where the first runs out of passes it may go on. -/
inductive Outlasted : Dialogue s α → Dialogue s α → Prop
  | done (a : α) : Outlasted (.done a) (.done a)
  | fail (f : Failure) : Outlasted (.fail f) (.fail f)
  | limit (passes : Nat) (left : Text) (q : Dialogue s α) : Outlasted (.fail (.limit passes left)) q
  | ask (i : s.Id) {next next' : Text → Dialogue s α}
    (hnext : ∀ text, Outlasted (next text) (next' text)) : Outlasted (.ask i next) (.ask i next')
  | tell (name : Text) (line : Nat) {next next' : Dialogue s α} (hnext : Outlasted next next') :
    Outlasted (.tell name line next) (.tell name line next')

namespace Outlasted

theorem refl (p : Dialogue s α) : Outlasted p p := by
  induction p with
  | done a => exact .done a
  | fail f => exact .fail f
  | ask i next ih => exact .ask i ih
  | tell name line next ih => exact .tell name line ih

theorem bind {p q : Dialogue s α} {k l : α → Dialogue s β} (hp : Outlasted p q)
    (hk : ∀ a, Outlasted (k a) (l a)) : Outlasted (p.bind k) (q.bind l) := by
  induction hp with
  | done a => exact hk a
  | fail f => exact .fail f
  | limit passes left q => exact .limit passes left _
  | ask i _ ih => exact .ask i ih
  | tell name line _ ih => exact .tell name line ih

theorem run {content content' : s.Id → σ → Except Failure Text × σ} {hear : Text → Nat → σ → σ}
    {p q : Dialogue s α} (hp : Outlasted p q)
    (hcontent : ∀ i st, ¬ RunsOut (content i st).1 → content' i st = content i st) {st : σ}
    (h : ¬ RunsOut (p.run ⟨content, hear, id, Failure.within⟩ st).1) :
    q.run ⟨content', hear, id, Failure.within⟩ st =
      p.run ⟨content, hear, id, Failure.within⟩ st := by
  induction hp generalizing st with
  | done a => rfl
  | fail f => rfl
  | limit passes left q => exact absurd ⟨_, rfl, trivial⟩ h
  | @ask i next next' _ ih =>
    simp only [Dialogue.run] at h ⊢
    rcases hi : content i st with ⟨f | text, st'⟩
    · rw [hi] at h
      have hf : ¬ RunsOut (content i st).1 := by simpa [hi] using h
      rw [hcontent i st hf, hi]
    · rw [hi] at h
      have htext : ¬ RunsOut (content i st).1 := by simp [hi]
      rw [hcontent i st htext, hi]
      exact ih text h
  | tell name line _ ih => exact ih h

end Outlasted

end Dialogue

namespace Context

variable (ctx : Context)

variable {ctx} in
theorem runsOut_workOut {content : ctx.Content} {i : ctx.store.Id} {s s₁ : Session ctx.store}
    {raw : Text} (hraw : ctx.raw (ctx.store.get i) s = (.ok raw, s₁)) :
    RunsOut (ctx.workOut content i s).1 ↔
      RunsOut ((ctx.dialogue raw.dropFinalLf).run (ctx.respondent content) s₁).1 := by
  rw [workOut, hraw]
  dsimp only
  rcases (ctx.dialogue raw.dropFinalLf).run (ctx.respondent content) s₁ with ⟨f | text, s₂⟩ <;> simp

abbrev withPasses (passes : Nat) : Context :=
  { ctx with options := { ctx.options with maxPasses := passes } }

theorem linesDialogue_withPasses (passes line : Nat) (lines : List Text) :
    (ctx.withPasses passes).linesDialogue line lines = ctx.linesDialogue line lines :=
  ctx.linesDialogue_mk { ctx.options with maxPasses := passes } ctx.fetch rfl rfl rfl line lines

variable {m n : Nat} (hle : m ≤ n)

theorem outlasted_passesDialogue {passes passes' : Nat} (h : passes ≤ passes') (text : Text) :
    Dialogue.Outlasted ((ctx.withPasses m).passesDialogue passes text)
      ((ctx.withPasses n).passesDialogue passes' text) := by
  induction passes generalizing passes' text with
  | zero => exact .limit m text _
  | succ passes ih =>
    obtain ⟨passes', rfl⟩ := Nat.exists_eq_succ_of_ne_zero (Nat.ne_zero_of_lt h)
    simp only [passesDialogue, linesDialogue_withPasses]
    refine (Dialogue.Outlasted.refl _).bind fun r => ?_
    rcases r with ⟨lines, _ | k⟩
    · exact .done _
    · exact ih (Nat.le_of_succ_le_succ h) _

include hle

theorem outlasted_dialogue (text : Text) :
    Dialogue.Outlasted ((ctx.withPasses m).dialogue text) ((ctx.withPasses n).dialogue text) :=
  ctx.outlasted_passesDialogue (Nat.succ_le_succ hle) text

theorem run_withPasses {content content' : ctx.Content}
    (hcontent : ∀ i s, ¬ RunsOut (content i s).1 → content' i s = content i s)
    {text : Text} {s : Session ctx.store}
    (h : ¬ RunsOut (((ctx.withPasses m).dialogue text).run
      ((ctx.withPasses m).respondent content) s).1) :
    ((ctx.withPasses n).dialogue text).run ((ctx.withPasses n).respondent content') s =
      ((ctx.withPasses m).dialogue text).run ((ctx.withPasses m).respondent content) s :=
  (ctx.outlasted_dialogue hle text).run hcontent h

theorem workOut_withPasses {content content' : ctx.Content}
    (hcontent : ∀ i s, ¬ RunsOut (content i s).1 → content' i s = content i s)
    {i : ctx.store.Id} {s : Session ctx.store}
    (h : ¬ RunsOut ((ctx.withPasses m).workOut content i s).1) :
    (ctx.withPasses n).workOut content' i s = (ctx.withPasses m).workOut content i s := by
  have hraw : (ctx.withPasses n).raw (ctx.store.get i) s =
      (ctx.withPasses m).raw (ctx.store.get i) s := by
    cases ctx.store.get i <;> rfl
  rcases hr : (ctx.withPasses m).raw (ctx.store.get i) s with ⟨f | raw, s₁⟩
  · simp only [workOut, hraw, hr]
  · rw [runsOut_workOut hr] at h
    simp only [workOut, hraw, hr, ctx.run_withPasses hle hcontent h]
    rcases ((ctx.withPasses m).dialogue raw.dropFinalLf).run _ s₁ with ⟨f | text, s₂⟩ <;> rfl

theorem contentOf_withPasses (stack : List Frame) (i : ctx.store.Id) (s : Session ctx.store)
    (h : ¬ RunsOut ((ctx.withPasses m).contentOf stack i s).1) :
    (ctx.withPasses n).contentOf stack i s = (ctx.withPasses m).contentOf stack i s := by
  induction stack using ctx.stack_induction generalizing i s with
  | step stack ih =>
    rw [contentOf_eq] at h ⊢
    rw [contentOf_eq]
    cases hcycle : cycle? stack (ctx.frame i) with
    | some names => rfl
    | none =>
      rw [hcycle] at h
      dsimp only at h ⊢
      cases hmemo : s.memo.lookup i with
      | some text => rfl
      | none =>
        rw [hmemo] at h
        exact ctx.workOut_withPasses hle (fun j s hj => ih i hcycle j s hj) h

theorem resolve_withPasses {memo : List (ctx.store.Id × Text)} {text : Text}
    (h : ¬ RunsOut ((ctx.withPasses m).resolve memo text).1) :
    (ctx.withPasses n).resolve memo text = (ctx.withPasses m).resolve memo text := by
  rw [resolve, expandWith_eq_run] at h ⊢
  rw [resolve, expandWith_eq_run]
  exact ctx.run_withPasses hle (fun i s hi => ctx.contentOf_withPasses hle [] i s hi) h

theorem answers_withPasses {memo : List (ctx.store.Id × Text)} {calls : List Call}
    (h : ∀ result ∈ (ctx.withPasses m).answers memo calls, ¬ RunsOut result) :
    (ctx.withPasses n).answers memo calls = (ctx.withPasses m).answers memo calls := by
  induction calls generalizing memo with
  | nil => rfl
  | cons call calls ih =>
    simp only [answers, List.mem_cons, forall_eq_or_imp] at h ⊢
    have hcall : (ctx.withPasses n).answer memo call = (ctx.withPasses m).answer memo call := by
      rw [answer_eq] at h ⊢
      rw [answer_eq]
      exact ctx.resolve_withPasses hle h.1
    rw [hcall, ih h.2]

omit hle

/-- What does not run out of passes comes out the same under a higher limit, be it a text or a
failure: for one call with all that it remembers and logs, and for calls in turn. -/
theorem passes_monotone (ctx : Context) {m n : Nat} (hle : m ≤ n) :
    (∀ text, ¬ RunsOut ((ctx.withPasses m).resolve [] text).1 →
      (ctx.withPasses n).resolve [] text = (ctx.withPasses m).resolve [] text) ∧
    ∀ calls, (∀ result ∈ (ctx.withPasses m).answers [] calls, ¬ RunsOut result) →
      (ctx.withPasses n).answers [] calls = (ctx.withPasses m).answers [] calls :=
  ⟨fun _ h => ctx.resolve_withPasses hle h, fun _ h => ctx.answers_withPasses hle h⟩

theorem passes_monotone_joining :
    (((joining .keep).withPasses 1).resolve [] (placeholder "a" ++ closing)).1 =
        .error (.limit 1 "x\n1\n2") ∧
      (((joining .keep).withPasses 2).resolve [] (placeholder "a" ++ closing)).1 =
        .ok "x\n1\n2" ∧
      ((joining .keep).withPasses 9).resolve [] (placeholder "a" ++ closing) =
        ((joining .keep).withPasses 2).resolve [] (placeholder "a" ++ closing) ∧
      (nested.withPasses 1).answers [] [.resolve (placeholder "a"), .resolve (placeholder "c")] =
        [.ok "// Source: d.md\n// Anchor: a\nx // Source: d.md\n// Anchor: b\n1",
          .error (.cyclic ["c", "c"])] ∧
      (nested.withPasses 9).answers [] [.resolve (placeholder "a"), .resolve (placeholder "c")] =
        (nested.withPasses 1).answers [] [.resolve (placeholder "a"),
          .resolve (placeholder "c")] := by
  have hlimit : (((joining .keep).withPasses 1).resolve [] (placeholder "a" ++ closing)).1 =
      .error (.limit 1 "x\n1\n2") := by
    decide +kernel
  have hout : (((joining .keep).withPasses 2).resolve [] (placeholder "a" ++ closing)).1 =
      .ok "x\n1\n2" := by
    decide +kernel
  have hanswers : (nested.withPasses 1).answers [] [.resolve (placeholder "a"),
      .resolve (placeholder "c")] =
        [.ok "// Source: d.md\n// Anchor: a\nx // Source: d.md\n// Anchor: b\n1",
          .error (.cyclic ["c", "c"])] := by
    decide +kernel
  refine ⟨hlimit, hout, (passes_monotone (joining .keep) (by decide)).1 _ ?_, hanswers,
    (passes_monotone nested (by decide)).2 _ ?_⟩
  · rw [hout]
    exact not_runsOut_ok _
  · rw [hanswers]
    simp [Failure.IsLimit]

end Context

end Tangle.Expansion
