import Tangle.Proofs.Expansion.Memo

namespace Tangle.Expansion

open Text

namespace Dialogue

variable {s s' : Store} {α β : Type} {R : s.Id → s'.Id → Prop}

/-- Dialogues that go alike as long as nothing fails: where the first asks for a block, the second
asks for a counterpart. -/
inductive Alike (R : s.Id → s'.Id → Prop) : Dialogue s α → Dialogue s' α → Prop
  | done (a : α) : Alike R (.done a) (.done a)
  | fail (f f' : Failure) : Alike R (.fail f) (.fail f')
  | ask {i : s.Id} {i' : s'.Id} {next : Text → Dialogue s α} {next' : Text → Dialogue s' α}
    (hi : R i i') (hnext : ∀ text, Alike R (next text) (next' text)) :
    Alike R (.ask i next) (.ask i' next')
  | tell (name : Text) (line : Nat) {next : Dialogue s α} {next' : Dialogue s' α}
    (hnext : Alike R next next') : Alike R (.tell name line next) (.tell name line next')

theorem Alike.bind {p : Dialogue s α} {p' : Dialogue s' α} {k : α → Dialogue s β}
    {k' : α → Dialogue s' β} (hp : Alike R p p') (hk : ∀ a, Alike R (k a) (k' a)) :
    Alike R (p.bind k) (p'.bind k') := by
  induction hp with
  | done a => exact hk a
  | fail f f' => exact .fail f f'
  | ask hi _ ih => exact .ask hi ih
  | tell name line _ ih => exact .tell name line ih

theorem Alike.eval {p : Dialogue s α} {p' : Dialogue s' α} {c : s.Id → Except Failure Text}
    {c' : s'.Id → Except Failure Text} {a : α} (hp : Alike R p p')
    (hc : ∀ i i' text, R i i' → c i = .ok text → c' i' = .ok text) (h : p.eval c = .ok a) :
    p'.eval c' = .ok a := by
  induction hp with
  | done b => exact h
  | fail f f' => simp [Dialogue.eval] at h
  | @ask i i' next next' hi _ ih =>
    cases htext : c i with
    | error f => simp [Dialogue.eval, htext] at h
    | ok text =>
      simp only [Dialogue.eval, htext, hc i i' text hi htext] at h ⊢
      exact ih text h
  | tell name line _ ih => exact ih h

end Dialogue

namespace Context

/-- The blocks that placeholders mean in `ctx` have counterparts in `ctx'`. -/
structure Embeds (ctx ctx' : Context) (R : ctx.store.Id → ctx'.store.Id → Prop) : Prop where
  maxPasses_eq : ctx'.options.maxPasses = ctx.options.maxPasses
  unresolved_eq : ctx'.options.unresolved = ctx.options.unresolved
  find? : ∀ name, Option.Rel R (ctx.find? name) (ctx'.find? name)
  provenance_eq : ∀ i i', R i i' →
    ctx'.provenance (ctx'.store.get i') ((ctx'.store.get i').name?.getD []) =
      ctx.provenance (ctx.store.get i) ((ctx.store.get i).name?.getD [])
  rawText : ∀ i i' raw, R i i' → ctx.rawText i = .ok raw → ctx'.rawText i' = .ok raw

namespace Embeds

variable {ctx ctx' : Context} {R : ctx.store.Id → ctx'.store.Id → Prop} (h : ctx.Embeds ctx' R)

include h

theorem segmentDialogue (indent : Text) (line : Nat) (segment : Segment) :
    Dialogue.Alike R (ctx.segmentDialogue indent line segment)
      (ctx'.segmentDialogue indent line segment) := by
  cases segment with
  | byte b => exact .done _
  | token run =>
    have hfind := h.find? (tokenName run)
    simp only [Context.segmentDialogue, h.unresolved_eq]
    cases hi : ctx.find? (tokenName run) with
    | none =>
      rw [hi] at hfind
      cases hi' : ctx'.find? (tokenName run) with
      | some i' => simp [hi'] at hfind
      | none =>
        dsimp only
        split
        next => exact .fail ..
        next => exact .tell _ _ (.done _)
    | some i =>
      rw [hi] at hfind
      cases hi' : ctx'.find? (tokenName run) with
      | none => simp [hi'] at hfind
      | some i' =>
        rw [hi'] at hfind
        have hR : R i i' := by simpa using hfind
        refine .ask hR fun text => ?_
        rw [h.provenance_eq i i' hR]
        exact .done _

theorem segmentsDialogue (indent : Text) (line : Nat) (parts : List Segment) :
    Dialogue.Alike R (ctx.segmentsDialogue indent line parts)
      (ctx'.segmentsDialogue indent line parts) := by
  induction parts with
  | nil => exact .done _
  | cons segment rest ih =>
    refine (h.segmentDialogue indent line segment).bind fun _ => ?_
    exact ih.bind fun _ => .done _

theorem linesDialogue (line : Nat) (lines : List Text) :
    Dialogue.Alike R (ctx.linesDialogue line lines) (ctx'.linesDialogue line lines) := by
  induction lines generalizing line with
  | nil => exact .done _
  | cons text rest ih =>
    refine (h.segmentsDialogue _ line _).bind fun _ => ?_
    exact (ih (line + 1)).bind fun _ => .done _

theorem passesDialogue (passes : Nat) (text : Text) :
    Dialogue.Alike R (ctx.passesDialogue passes text) (ctx'.passesDialogue passes text) := by
  induction passes generalizing text with
  | zero => exact .fail ..
  | succ passes ih =>
    refine (h.linesDialogue 1 _).bind fun r => ?_
    rcases r with ⟨lines, _ | n⟩
    · exact .done _
    · exact ih _

theorem dialogue (text : Text) : Dialogue.Alike R (ctx.dialogue text) (ctx'.dialogue text) := by
  unfold Context.dialogue
  rw [h.maxPasses_eq]
  exact h.passesDialogue _ text

theorem toDepth (n : Nat) (i : ctx.store.Id) (i' : ctx'.store.Id) (text : Text) (hR : R i i')
    (hi : ctx.toDepth n i = .ok text) : ctx'.toDepth n i' = .ok text := by
  induction n generalizing i i' text with
  | zero => simp [Context.toDepth] at hi
  | succ n ih =>
    obtain ⟨raw, hraw, heval⟩ := toDepth_succ_eq_ok.1 hi
    exact toDepth_succ_eq_ok.2 ⟨raw, h.rawText i i' raw hR hraw, (h.dialogue raw).eval ih heval⟩

theorem settles {i : ctx.store.Id} {i' : ctx'.store.Id} {text : Text} (hR : R i i')
    (hi : ctx.Settles i text) : ctx'.Settles i' text := by
  obtain ⟨n, hn⟩ := hi
  exact ⟨n, h.toDepth n i i' text hR hn⟩

end Embeds

theorem resolve_eq_ok_iff {ctx : Context} {memo : List (ctx.store.Id × Text)} {text out : Text}
    (hstore : ctx.store.ColonFree) (hmemo : ctx.Truthful (ctx.start memo)) :
    (ctx.resolve memo text).1 = .ok out ↔
      ∃ n, (ctx.dialogue text).eval (ctx.toDepth n) = .ok out := by
  constructor
  · intro h
    rw [resolve, expandWith_eq_run] at h
    exact (Truthful.run (Truthful.contentOf []) (ctx.dialogue text) hmemo).1 out h
  · rintro ⟨n, hn⟩
    rw [fst_resolve hstore hmemo]
    refine Dialogue.eval_eq_ok_of_asks hn fun j text' hj hj' => ?_
    have hunder : ctx.Under [] j := ⟨Dialogue.of_asks (ctx.every_dialogue text) hj, by simp⟩
    exact hunder.anew_eq_ok hstore ⟨n, hj'⟩

theorem Embeds.resolve {ctx ctx' : Context} {R : ctx.store.Id → ctx'.store.Id → Prop}
    {memo : List (ctx.store.Id × Text)} {memo' : List (ctx'.store.Id × Text)} {text out : Text}
    (h : ctx.Embeds ctx' R) (hstore : ctx.store.ColonFree) (hstore' : ctx'.store.ColonFree)
    (hmemo : ctx.Truthful (ctx.start memo)) (hmemo' : ctx'.Truthful (ctx'.start memo'))
    (hout : (ctx.resolve memo text).1 = .ok out) : (ctx'.resolve memo' text).1 = .ok out := by
  obtain ⟨n, hn⟩ := (resolve_eq_ok_iff hstore hmemo).1 hout
  exact (resolve_eq_ok_iff hstore' hmemo').2 ⟨n, (h.dialogue text).eval (h.toDepth n) hn⟩

section Rehearsal

variable (ctx : Context) (dry : Bool) (fetch : Ref → Except Extract.Failure Text)

abbrev rehearsal : Context := ⟨ctx.store, { ctx.options with dryRun := dry }, ctx.base, fetch⟩

theorem linesDialogue_rehearsal (line : Nat) (lines : List Text) :
    (ctx.rehearsal dry fetch).linesDialogue line lines = ctx.linesDialogue line lines :=
  ctx.linesDialogue_mk { ctx.options with dryRun := dry } fetch rfl rfl rfl line lines

theorem dialogue_rehearsal (text : Text) :
    (ctx.rehearsal dry fetch).dialogue text = ctx.dialogue text := by
  have hpasses : ∀ passes text, (ctx.rehearsal dry fetch).passesDialogue passes text =
      ctx.passesDialogue passes text := by
    intro passes
    induction passes with
    | zero => exact fun _ => rfl
    | succ passes ih =>
      intro text
      simp only [passesDialogue, linesDialogue_rehearsal, ih]
  exact hpasses _ text

theorem respondent_rehearsal (content : ctx.Content) :
    (ctx.rehearsal dry fetch).respondent content = ctx.respondent content := by
  have hunresolved : ∀ name line s, (ctx.rehearsal dry fetch).unresolved name line s =
      ctx.unresolved name line s := by
    intro name line s
    unfold unresolved
    cases ctx.options.unresolved <;> rfl
  simp only [respondent, hunresolved]

variable {ctx fetch} (h : ∀ r, .reference r ∈ ctx.store.blocks → fetch r.ref = ctx.fetch r.ref)

include h

theorem raw_rehearsal (i : ctx.store.Id) (s : Session ctx.store) :
    (ctx.rehearsal dry fetch).raw (ctx.store.get i) s = ctx.raw (ctx.store.get i) s := by
  have hmem : ctx.store.get i ∈ ctx.store.blocks := List.get_mem ..
  revert hmem
  cases ctx.store.get i with
  | reference r =>
    intro hmem
    simp only [raw, h r hmem]
  | _ => exact fun _ => rfl

theorem workOut_rehearsal (content : ctx.Content) (i : ctx.store.Id) (s : Session ctx.store) :
    (ctx.rehearsal dry fetch).workOut content i s = ctx.workOut content i s := by
  unfold workOut
  rw [raw_rehearsal dry h]
  rcases ctx.raw (ctx.store.get i) s with ⟨f | raw, s⟩
  · rfl
  · dsimp only
    rw [dialogue_rehearsal, respondent_rehearsal]
    rcases (ctx.dialogue raw.dropFinalLf).run (ctx.respondent content) s with ⟨f | text, s⟩ <;> rfl

theorem contentOf_rehearsal (stack : List Frame) :
    (ctx.rehearsal dry fetch).contentOf stack = ctx.contentOf stack := by
  induction stack using ctx.stack_induction with
  | step stack ih =>
    funext i s
    rw [contentOf_eq, contentOf_eq]
    cases hcycle : cycle? stack (ctx.frame i) with
    | some names => rfl
    | none =>
      cases s.memo.lookup i with
      | some text => rfl
      | none => exact (workOut_rehearsal dry h _ i s).trans (by rw [ih i hcycle])

theorem resolve_rehearsal (memo : List (ctx.store.Id × Text)) (text : Text) :
    (ctx.rehearsal dry fetch).resolve memo text = ctx.resolve memo text := by
  simp only [resolve, contentOf_rehearsal dry h, expandWith_eq_run, dialogue_rehearsal,
    respondent_rehearsal]
  rfl

end Rehearsal

end Context

end Tangle.Expansion
