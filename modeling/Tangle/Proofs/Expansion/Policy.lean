import Tangle.Proofs.Expansion.Memo
import Tangle.Proofs.Expansion.Remainder

namespace Tangle.Expansion

open Text

namespace Dialogue

variable {s : Store} {α β σ : Type}

def strict : Dialogue s α → Dialogue s α
  | done a => done a
  | fail f => fail f
  | ask i next => ask i fun text => (next text).strict
  | tell name line _ => fail (.unresolved name line)

def under (policy : Policy) (p : Dialogue s α) : Dialogue s α :=
  if policy = .error then p.strict else p

@[simp] theorem under_done (policy : Policy) (a : α) :
    (done a : Dialogue s α).under policy = done a := by
  unfold under
  split <;> rfl

@[simp] theorem under_fail (policy : Policy) (f : Failure) :
    (fail f : Dialogue s α).under policy = fail f := by
  unfold under
  split <;> rfl

@[simp] theorem under_ask (policy : Policy) (i : s.Id) (next : Text → Dialogue s α) :
    (ask i next).under policy = ask i fun text => (next text).under policy := by
  unfold under
  split <;> rfl

theorem strict_bind (p : Dialogue s α) (k : α → Dialogue s β) :
    (p.bind k).strict = p.strict.bind fun a => (k a).strict := by
  induction p with
  | done a => rfl
  | fail f => rfl
  | ask i next ih =>
    simp only [bind, strict]
    congr 1
    funext text
    exact ih text
  | tell name line next => rfl

theorem under_bind (policy : Policy) (p : Dialogue s α) (k : α → Dialogue s β) :
    (p.bind k).under policy = (p.under policy).bind fun a => (k a).under policy := by
  unfold under
  split
  · exact strict_bind p k
  · rfl

variable {content content' : s.Id → σ → Except Failure Text × σ} {hear hear' : Text → Nat → σ → σ}
  {failure failure' within within' : Failure → Failure}

theorem run_of_strict {p : Dialogue s α} {a : α} {st st' : σ}
    (hcontent : ∀ i st text st', content i st = (.ok text, st') → content' i st = (.ok text, st'))
    (h : p.strict.run ⟨content, hear, failure, within⟩ st = (.ok a, st')) :
    p.run ⟨content', hear', failure', within'⟩ st = (.ok a, st') := by
  induction p generalizing st with
  | done b => exact h
  | fail f => simp [strict, run] at h
  | ask i next ih =>
    simp only [strict, run] at h ⊢
    split at h
    next => simp at h
    next text st₁ hi =>
      rw [hcontent i st text st₁ hi]
      exact ih text h
  | tell name line next => simp [strict, run] at h

theorem Exposes.run_strict {D : Text → Prop} {Q : α → Prop} {p : Dialogue s α} {a : α}
    {st st' : σ} (hp : p.Exposes D Q)
    (hcontent : ∀ i st text st', ¬ D text → content i st = (.ok text, st') →
      content' i st = (.ok text, st'))
    (h : p.run ⟨content, hear, failure, within⟩ st = (.ok a, st')) (ha : ¬ Q a) :
    p.strict.run ⟨content', hear', failure', within'⟩ st = (.ok a, st') := by
  induction p generalizing st with
  | done b => exact h
  | fail f => simp [run] at h
  | ask i next ih =>
    simp only [strict, run] at h ⊢
    split at h
    next => simp at h
    next text st₁ hi =>
      -- A text in `D` would show in the end.
      have hD : ¬ D text := fun hD => ha (((hp text).2 hD).of_run h)
      rw [hcontent i st text st₁ hD hi]
      exact ih text (hp text).1 h
  | tell name line next => exact absurd (Always.of_run hp h) ha

end Dialogue

namespace Context

variable (ctx : Context)

abbrev withPolicy (policy : Policy) : Context :=
  { ctx with options := { ctx.options with unresolved := policy } }

theorem find?_withPolicy (policy : Policy) (name : Text) :
    (ctx.withPolicy policy).find? name = ctx.find? name :=
  ctx.find?_mk _ _ name

theorem raw_withPolicy (policy : Policy) (b : Block) (s : Session ctx.store) :
    (ctx.withPolicy policy).raw b s = ctx.raw b s := by
  cases b <;> simp only [raw]

theorem segmentDialogue_withPolicy (policy : Policy) (indent : Text) (line : Nat)
    (segment : Segment) :
    (ctx.withPolicy policy).segmentDialogue indent line segment =
      ((ctx.withPolicy .keep).segmentDialogue indent line segment).under policy := by
  cases segment with
  | byte b => simp [segmentDialogue]
  | token run =>
    simp only [segmentDialogue]
    rw [ctx.find?_withPolicy policy, ctx.find?_withPolicy .keep]
    cases ctx.find? (tokenName run) with
    | none => by_cases h : policy = .error <;> simp [Dialogue.under, h, Dialogue.strict]
    | some i =>
      dsimp only
      rw [Dialogue.under_ask]
      congr 1
      funext text
      exact (Dialogue.under_done policy _).symm

theorem segmentsDialogue_withPolicy (policy : Policy) (indent : Text) (line : Nat)
    (parts : List Segment) :
    (ctx.withPolicy policy).segmentsDialogue indent line parts =
      ((ctx.withPolicy .keep).segmentsDialogue indent line parts).under policy := by
  induction parts with
  | nil => exact (Dialogue.under_done policy _).symm
  | cons segment rest ih =>
    simp only [segmentsDialogue, Dialogue.under_bind, Dialogue.under_done, ih,
      ctx.segmentDialogue_withPolicy policy]

theorem linesDialogue_withPolicy (policy : Policy) (line : Nat) (lines : List Text) :
    (ctx.withPolicy policy).linesDialogue line lines =
      ((ctx.withPolicy .keep).linesDialogue line lines).under policy := by
  induction lines generalizing line with
  | nil => exact (Dialogue.under_done policy _).symm
  | cons text rest ih =>
    simp only [linesDialogue, lineDialogue, Dialogue.under_bind, Dialogue.under_done, ih,
      ctx.segmentsDialogue_withPolicy policy]

theorem passesDialogue_withPolicy (policy : Policy) (passes : Nat) (text : Text) :
    (ctx.withPolicy policy).passesDialogue passes text =
      ((ctx.withPolicy .keep).passesDialogue passes text).under policy := by
  induction passes generalizing text with
  | zero => exact (Dialogue.under_fail policy _).symm
  | succ passes ih =>
    simp only [passesDialogue, Dialogue.under_bind, ctx.linesDialogue_withPolicy policy]
    congr 1
    funext r
    cases r with
    | mk lines n =>
      cases n with
      | zero => exact (Dialogue.under_done policy _).symm
      | succ n => exact ih _

theorem dialogue_withPolicy (policy : Policy) (text : Text) :
    (ctx.withPolicy policy).dialogue text =
      ((ctx.withPolicy .keep).dialogue text).under policy :=
  ctx.passesDialogue_withPolicy policy _ text

theorem contentOf_keep {stack : List Frame} {i : ctx.store.Id} {s s' : Session ctx.store}
    {text : Text} (h : (ctx.withPolicy .error).contentOf stack i s = (.ok text, s')) :
    (ctx.withPolicy .keep).contentOf stack i s = (.ok text, s') := by
  induction stack using ctx.stack_induction generalizing i s text s' with
  | step stack ih =>
    rw [contentOf_eq_ok] at h ⊢
    refine ⟨h.1, h.2.imp id (And.imp id ?_)⟩
    rw [workOut_eq_ok, workOut_eq_ok]
    rintro ⟨raw, s₁, s₂, hraw, hrun, hs'⟩
    rw [dialogue_withPolicy] at hrun
    exact ⟨raw, s₁, s₂, hraw, Dialogue.run_of_strict (fun j s text s' hj => ih i h.1 hj) hrun, hs'⟩

theorem contentOf_error {stack : List Frame} {i : ctx.store.Id} {s s' : Session ctx.store}
    {text : Text} (h : (ctx.withPolicy .keep).contentOf stack i s = (.ok text, s'))
    (htext : ¬ (ctx.withPolicy .keep).Dangles text) :
    (ctx.withPolicy .error).contentOf stack i s = (.ok text, s') := by
  induction stack using ctx.stack_induction generalizing i s text s' with
  | step stack ih =>
    rw [contentOf_eq_ok] at h ⊢
    refine ⟨h.1, h.2.imp id (And.imp id ?_)⟩
    rw [workOut_eq_ok, workOut_eq_ok]
    rintro ⟨raw, s₁, s₂, hraw, hrun, hs'⟩
    refine ⟨raw, s₁, s₂, hraw, ?_, hs'⟩
    rw [dialogue_withPolicy]
    exact (exposes_passesDialogue _ _).run_strict
      (fun j s text s' htext hj => ih i h.1 hj htext) hrun htext

theorem mapError_id {ε α : Type} (x : Except ε α) : x.mapError id = x := by
  cases x <;> rfl

def Agree {s : Store} {α : Type} (r r' : Result s α) : Prop :=
  r.1 = r'.1 ∧ r.2.memo = r'.2.memo

@[elab_as_elim] theorem Agree.elim {s : Store} {α : Type} {motive : Result s α → Result s α → Prop}
    {r r' : Result s α} (h : Agree r r')
    (error : ∀ f (s₁ s₂ : Session s), s₁.memo = s₂.memo → motive (.error f, s₁) (.error f, s₂))
    (ok : ∀ a (s₁ s₂ : Session s), s₁.memo = s₂.memo → motive (.ok a, s₁) (.ok a, s₂)) :
    motive r r' := by
  rcases r with ⟨x, s₁⟩
  rcases r' with ⟨x', s₂⟩
  obtain ⟨rfl, hs⟩ : x = x' ∧ s₁.memo = s₂.memo := h
  cases x with
  | error f => exact error f s₁ s₂ hs
  | ok a => exact ok a s₁ s₂ hs

theorem agree_run {α : Type} (policy : Policy) {content content' : ctx.Content}
    (hcontent : ∀ i (s s' : Session ctx.store), s.memo = s'.memo →
      Agree (content i s) (content' i s'))
    {P : ctx.store.Id → Prop} {F : Failure → Prop} {p : Dialogue ctx.store α} (hp : p.Every P F)
    {s s' : Session ctx.store} (h : s.memo = s'.memo) :
    Agree (p.run ((ctx.withPolicy policy).respondent content) s)
      (p.run ((ctx.withPolicy .keep).respondent content') s') := by
  have hrun := Dialogue.run_related (r := (ctx.withPolicy policy).respondent content)
    (q := (ctx.withPolicy .keep).respondent content')
    (R := fun s s' : Session ctx.store => s.memo = s'.memo) (g := id)
    (fun i s s' _ h => by rw [mapError_id]; exact hcontent i s s' h)
    (fun name line s s' h => by
      simp only [respondent]
      rw [memo_unresolved, memo_unresolved, h])
    (fun _ => rfl) (fun _ => rfl) hp h
  rwa [mapError_id] at hrun

variable {policy : Policy}

theorem dialogue_of_ne_error (hpolicy : policy ≠ .error) (text : Text) :
    (ctx.withPolicy policy).dialogue text = (ctx.withPolicy .keep).dialogue text := by
  rw [dialogue_withPolicy, Dialogue.under, if_neg hpolicy]

theorem agree_workOut (hpolicy : policy ≠ .error) {content content' : ctx.Content}
    (hcontent : ∀ i (s s' : Session ctx.store), s.memo = s'.memo →
      Agree (content i s) (content' i s'))
    (i : ctx.store.Id) {s s' : Session ctx.store} (h : s.memo = s'.memo) :
    Agree ((ctx.withPolicy policy).workOut content i s)
      ((ctx.withPolicy .keep).workOut content' i s') := by
  have hraw : Agree (ctx.raw (ctx.store.get i) s) (ctx.raw (ctx.store.get i) s') :=
    ⟨ctx.raw_fst _ s s', by rw [memo_raw, memo_raw, h]⟩
  rw [workOut, workOut, ctx.raw_withPolicy policy, ctx.raw_withPolicy .keep]
  refine hraw.elim (fun f s₁ s₂ hs => ⟨rfl, hs⟩) fun raw s₁ s₂ hs => ?_
  have hrun := ctx.agree_run policy hcontent
    ((ctx.withPolicy .keep).every_dialogue raw.dropFinalLf) hs
  dsimp only
  rw [ctx.dialogue_of_ne_error hpolicy]
  refine hrun.elim (fun f s₁ s₂ hs => ⟨rfl, hs⟩) fun text s₁ s₂ hs => ?_
  exact ⟨rfl, congrArg (List.cons (i, text)) hs⟩

theorem agree_contentOf (hpolicy : policy ≠ .error) (stack : List Frame) (i : ctx.store.Id)
    {s s' : Session ctx.store} (h : s.memo = s'.memo) :
    Agree ((ctx.withPolicy policy).contentOf stack i s)
      ((ctx.withPolicy .keep).contentOf stack i s') := by
  induction stack using ctx.stack_induction generalizing i s s' with
  | step stack ih =>
    rw [contentOf_eq, contentOf_eq, h]
    cases hcycle : cycle? stack (ctx.frame i) with
    | some names => exact ⟨rfl, h⟩
    | none =>
      dsimp only
      cases s'.memo.lookup i with
      | some text => exact ⟨rfl, h⟩
      | none => exact ctx.agree_workOut hpolicy (fun j s s' h => ih i hcycle j h) i h

theorem agree_resolve (hpolicy : policy ≠ .error) (memo : List (ctx.store.Id × Text))
    (text : Text) :
    Agree ((ctx.withPolicy policy).resolve memo text)
      ((ctx.withPolicy .keep).resolve memo text) := by
  rw [resolve, resolve, expandWith_eq_run, expandWith_eq_run, ctx.dialogue_of_ne_error hpolicy]
  apply ctx.agree_run policy _ ((ctx.withPolicy .keep).every_dialogue text) rfl
  intro i s s' h
  exact ctx.agree_contentOf hpolicy [] i h

variable {ctx} {memo : List (ctx.store.Id × Text)} {s : Session ctx.store} {text out : Text}

theorem resolve_keep (h : (ctx.withPolicy .error).resolve memo text = (.ok out, s)) :
    (ctx.withPolicy .keep).resolve memo text = (.ok out, s) := by
  rw [resolve, expandWith_eq_run] at h ⊢
  rw [dialogue_withPolicy] at h
  apply Dialogue.run_of_strict _ h
  intro i s text s' hi
  exact ctx.contentOf_keep hi

theorem resolve_error (h : (ctx.withPolicy .keep).resolve memo text = (.ok out, s))
    (hout : ¬ (ctx.withPolicy .keep).Dangles out) :
    (ctx.withPolicy .error).resolve memo text = (.ok out, s) := by
  rw [resolve, expandWith_eq_run] at h ⊢
  rw [dialogue_withPolicy]
  apply (exposes_passesDialogue _ text).run_strict _ h hout
  intro i s text s' htext hi
  exact ctx.contentOf_error hi htext

/-- The policies `keep` and `warn` give the same outcome, and `error` succeeds just where they leave
no placeholder. -/
theorem policies_agree (ctx : Context) (text : Text) :
    ((ctx.withPolicy .keep).resolve [] text).1 = ((ctx.withPolicy .warn).resolve [] text).1 ∧
      ∀ out, ((ctx.withPolicy .error).resolve [] text).1 = .ok out ↔
        ((ctx.withPolicy .keep).resolve [] text).1 = .ok out ∧
          ∀ line ∈ split lf out, names line = [] := by
  have hwarn : Policy.warn ≠ .error := by decide
  refine ⟨(ctx.agree_resolve hwarn [] text).1.symm, fun out => ⟨?_, ?_⟩⟩
  · intro h
    refine ⟨congrArg Prod.fst (resolve_keep (Prod.ext h rfl)), fun line hline => ?_⟩
    rw [List.eq_nil_iff_forall_not_mem]
    intro name hname
    exact (leaves_of_resolve h line hline name hname).2 rfl
  · intro h
    refine congrArg Prod.fst (resolve_error (Prod.ext h.1 rfl) fun hout => ?_)
    obtain ⟨line, hline, hdangles⟩ := hout.exists_line
    obtain ⟨run, -, hmem⟩ := hdangles.exists_token
    have hname := mem_names.2 ⟨run, hmem, rfl⟩
    simp [h.2 line hline] at hname

end Context

end Tangle.Expansion

