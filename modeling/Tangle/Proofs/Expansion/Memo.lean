import Tangle.Proofs.Document.Name
import Tangle.Proofs.Expansion.Settled

/-!
What is remembered never shows. A text is remembered under one stack and used under another, where
the block might have been part of a cycle. It cannot be: the blocks on a stack lead to the one asked
for, a remembered block has settled, and a settled block does not lead back to itself. So every call
answers as one that works all blocks out anew.
-/

namespace Tangle.Expansion

open Text

namespace Context

theorem cycle?_eq_none_iff {stack : List Frame} {frame : Frame} :
    cycle? stack frame = none ↔ ∀ f ∈ stack, f.key ≠ frame.key := by
  simp [cycle?]

variable (ctx : Context)

theorem stack_induction {motive : List Frame → Prop}
    (step : ∀ stack, (∀ i, cycle? stack (ctx.frame i) = none → motive (stack ++ [ctx.frame i])) →
      motive stack) (stack : List Frame) : motive stack := by
  induction h : (ctx.fresh stack).length using Nat.strong_induction_on generalizing stack with
  | _ n ih =>
    apply step
    intro i hi
    exact ih _ (h ▸ length_fresh_append_lt ctx hi) _ rfl

def workOut (content : ctx.Content) (i : ctx.store.Id) (s : Session ctx.store) :
    Result ctx.store Text :=
  match ctx.raw (ctx.store.get i) s with
  | (.error f, s) => (.error f, s)
  | (.ok raw, s) =>
    match (ctx.dialogue raw.dropFinalLf).run (ctx.respondent content) s with
    | (.error f, s) => (.error f, s)
    | (.ok text, s) => (.ok text, s.remember i text)

theorem contentOf_eq (stack : List Frame) (i : ctx.store.Id) (s : Session ctx.store) :
    ctx.contentOf stack i s =
      match cycle? stack (ctx.frame i) with
      | some names => (.error (.cyclic names), s)
      | none =>
        match s.memo.lookup i with
        | some text => (.ok text, s)
        | none => ctx.workOut (ctx.contentOf (stack ++ [ctx.frame i])) i s := by
  rw [contentOf]
  simp only [expandWith_eq_run, workOut]
  split
  next h => rw [h]
  next h => rw [h]; rfl

variable {ctx} in
theorem workOut_eq_ok {content : ctx.Content} {i : ctx.store.Id} {s s' : Session ctx.store}
    {text : Text} :
    ctx.workOut content i s = (.ok text, s') ↔
      ∃ raw s₁ s₂, ctx.raw (ctx.store.get i) s = (.ok raw, s₁) ∧
        (ctx.dialogue raw.dropFinalLf).run (ctx.respondent content) s₁ = (.ok text, s₂) ∧
        s₂.remember i text = s' := by
  rw [workOut]
  constructor
  · intro h
    split at h
    next => simp at h
    next raw s₁ hraw =>
      split at h
      next => simp at h
      next text' s₂ hrun =>
        simp only [Prod.mk.injEq, Except.ok.injEq] at h
        obtain ⟨rfl, rfl⟩ := h
        exact ⟨raw, s₁, s₂, hraw, hrun, rfl⟩
  · rintro ⟨raw, s₁, s₂, hraw, hrun, rfl⟩
    simp only [hraw, hrun]

variable {ctx} in
theorem contentOf_eq_ok {stack : List Frame} {i : ctx.store.Id} {s s' : Session ctx.store}
    {text : Text} :
    ctx.contentOf stack i s = (.ok text, s') ↔
      cycle? stack (ctx.frame i) = none ∧
        (s.memo.lookup i = some text ∧ s = s' ∨ s.memo.lookup i = none ∧
          ctx.workOut (ctx.contentOf (stack ++ [ctx.frame i])) i s = (.ok text, s')) := by
  rw [contentOf_eq]
  cases cycle? stack (ctx.frame i) with
  | some names => simp
  | none => cases s.memo.lookup i <;> simp

/-- The text of a block worked out anew: `contentOf` without a look at what is remembered. -/
def contentAnew (stack : List Frame) (i : ctx.store.Id) (s : Session ctx.store) :
    Result ctx.store Text :=
  let frame := Frame.ofBlock (ctx.store.get i)
  match _h : cycle? stack frame with
  | some names => (.error (.cyclic names), s)
  | none =>
    match ctx.raw (ctx.store.get i) s with
    | (.error f, s) => (.error f, s)
    | (.ok raw, s) =>
      match ctx.expandWith (fun j s => contentAnew (stack ++ [frame]) j s) raw.dropFinalLf s with
      | (.error f, s) => (.error f, s)
      | (.ok text, s) => (.ok text, s.remember i text)
termination_by (ctx.fresh stack).length
decreasing_by exact length_fresh_append_lt ctx _h

def anew (stack : List Frame) (i : ctx.store.Id) : Except Failure Text :=
  (ctx.contentAnew stack i {}).1

theorem contentAnew_eq (stack : List Frame) (i : ctx.store.Id) (s : Session ctx.store) :
    ctx.contentAnew stack i s =
      match cycle? stack (ctx.frame i) with
      | some names => (.error (.cyclic names), s)
      | none => ctx.workOut (ctx.contentAnew (stack ++ [ctx.frame i])) i s := by
  rw [contentAnew]
  simp only [expandWith_eq_run, workOut]
  split
  next h => rw [h]
  next h => rw [h]; rfl

theorem memo_unresolved (name : Text) (line : Nat) (s : Session ctx.store) :
    (ctx.unresolved name line s).2.memo = s.memo := by
  unfold unresolved
  split
  next => rfl
  next => split <;> rfl
  next => rfl

theorem fst_workOut {content : ctx.Content} {c : ctx.store.Id → Except Failure Text}
    {I : Session ctx.store → Prop} (hmemo : ∀ s s', s'.memo = s.memo → I s → I s')
    {i : ctx.store.Id}
    (hcontent : ∀ raw j s, ctx.rawText i = .ok raw → (ctx.dialogue raw).Asks c j → I s →
      (content j s).1 = c j ∧ I (content j s).2)
    {s : Session ctx.store} (h : I s) :
    (ctx.workOut content i s).1 =
      match ctx.rawText i with
      | .error f => .error f
      | .ok raw => (ctx.dialogue raw).eval c := by
  have hraw := ctx.rawText_eq i s
  have hs := hmemo s _ (ctx.memo_raw (ctx.store.get i) s) h
  rw [workOut]
  rcases hr : ctx.raw (ctx.store.get i) s with ⟨f | raw, s₁⟩
  · rw [hr] at hraw
    rw [hraw]
    rfl
  · rw [hr] at hraw hs
    replace hraw : ctx.rawText i = .ok raw.dropFinalLf := hraw
    have heval : ((ctx.dialogue raw.dropFinalLf).run (ctx.respondent content) s₁).1 =
        (ctx.dialogue raw.dropFinalLf).eval c :=
      (Dialogue.run_eq_eval (fun j s hj hs => hcontent _ j s hraw hj hs)
        (fun name line s hs => hmemo s _ (ctx.memo_unresolved name line s) hs) hs).1
    rw [hraw]
    simp only [← heval]
    split
    next hrun => rw [hrun]
    next hrun => rw [hrun]

theorem fst_contentAnew_eq (stack : List Frame) (i : ctx.store.Id) (s : Session ctx.store) :
    (ctx.contentAnew stack i s).1 =
      match cycle? stack (ctx.frame i) with
      | some names => .error (.cyclic names)
      | none =>
        match ctx.rawText i with
        | .error f => .error f
        | .ok raw => (ctx.dialogue raw).eval (ctx.anew (stack ++ [ctx.frame i])) := by
  induction stack using ctx.stack_induction generalizing i s with
  | step stack ih =>
    rw [contentAnew_eq]
    split
    next => rfl
    next h =>
      apply ctx.fst_workOut (I := fun _ => True) (fun _ _ _ _ => trivial) ?_ trivial
      intro raw j s _ _ _
      rw [anew, ih i h j s, ih i h j {}]
      exact ⟨rfl, trivial⟩

theorem fst_contentAnew (stack : List Frame) (i : ctx.store.Id) (s : Session ctx.store) :
    (ctx.contentAnew stack i s).1 = ctx.anew stack i := by
  rw [anew, fst_contentAnew_eq, fst_contentAnew_eq]

theorem anew_eq (stack : List Frame) (i : ctx.store.Id) :
    ctx.anew stack i =
      match cycle? stack (ctx.frame i) with
      | some names => .error (.cyclic names)
      | none =>
        match ctx.rawText i with
        | .error f => .error f
        | .ok raw => (ctx.dialogue raw).eval (ctx.anew (stack ++ [ctx.frame i])) :=
  ctx.fst_contentAnew_eq stack i {}

theorem sound_anew (stack : List Frame) : ctx.Sound (ctx.anew stack) := by
  induction stack using ctx.stack_induction with
  | step stack ih =>
    intro i text h
    rw [anew_eq] at h
    split at h
    next => simp at h
    next hcycle =>
      split at h
      next => simp at h
      next hraw => exact (ih i hcycle).settles hraw h

def Truthful (s : Session ctx.store) : Prop :=
  ∀ i text, s.memo.lookup i = some text → ctx.Settles i text

variable {ctx} {s : Session ctx.store} {i j : ctx.store.Id} {ids : List ctx.store.Id} {text : Text}

theorem Truthful.of_memo_eq {s' : Session ctx.store} (h : ctx.Truthful s)
    (hmemo : s'.memo = s.memo) : ctx.Truthful s' := by
  intro i text hi
  exact h i text (hmemo ▸ hi)

theorem Truthful.remember (h : ctx.Truthful s) (hi : ctx.Settles i text) :
    ctx.Truthful (s.remember i text) := by
  intro j text' hj
  by_cases hij : j = i
  · subst hij
    obtain rfl : text = text' := by simpa [Session.remember] using hj
    exact hi
  · exact h j text' (by simpa [Session.remember, List.lookup_cons, beq_false_of_ne hij] using hj)

theorem Truthful.run {α : Type} {content : ctx.Content}
    (hcontent : ∀ i s, ctx.Truthful s →
      (∀ text, (content i s).1 = .ok text → ctx.Settles i text) ∧ ctx.Truthful (content i s).2)
    (p : Dialogue ctx.store α) (h : ctx.Truthful s) :
    (∀ a, (p.run (ctx.respondent content) s).1 = .ok a → ∃ n, p.eval (ctx.toDepth n) = .ok a) ∧
      ctx.Truthful (p.run (ctx.respondent content) s).2 := by
  induction p generalizing s with
  | done a => exact ⟨fun b hb => ⟨0, hb⟩, h⟩
  | fail f => exact ⟨fun b hb => by simp [Dialogue.run] at hb, h⟩
  | ask i next ih =>
    obtain ⟨hi, hs⟩ := hcontent i s h
    rcases hc : content i s with ⟨f | text, s₁⟩
    · simpa [Dialogue.run, respondent, hc] using hs
    · rw [hc] at hi hs
      obtain ⟨hnext, hs⟩ := ih text hs
      simp only [Dialogue.run, show (ctx.respondent content).content i s = (.ok text, s₁) from hc]
      exact ⟨fun a ha => (hi text rfl).exists_depth_ask (hnext a ha), hs⟩
  | tell name line next ih => exact ih (h.of_memo_eq (ctx.memo_unresolved name line s))

theorem Truthful.workOut {content : ctx.Content}
    (hcontent : ∀ i s, ctx.Truthful s →
      (∀ text, (content i s).1 = .ok text → ctx.Settles i text) ∧ ctx.Truthful (content i s).2)
    (i : ctx.store.Id) (h : ctx.Truthful s) :
    (∀ text, (ctx.workOut content i s).1 = .ok text → ctx.Settles i text) ∧
      ctx.Truthful (ctx.workOut content i s).2 := by
  have hraw := ctx.rawText_eq i s
  have hs := h.of_memo_eq (ctx.memo_raw (ctx.store.get i) s)
  rw [Context.workOut]
  rcases hr : ctx.raw (ctx.store.get i) s with ⟨f | raw, s₁⟩
  · rw [hr] at hs
    exact ⟨fun text ht => by simp at ht, hs⟩
  · rw [hr] at hs hraw
    replace hraw : ctx.rawText i = .ok raw.dropFinalLf := hraw
    obtain ⟨hok, hs⟩ := Truthful.run hcontent (ctx.dialogue raw.dropFinalLf) hs
    rcases hrun : (ctx.dialogue raw.dropFinalLf).run (ctx.respondent content) s₁ with
      ⟨f | text, s₂⟩
    · exact ⟨fun text ht => by simp [hrun] at ht, by simpa [hrun] using hs⟩
    · rw [hrun] at hok hs
      obtain ⟨n, hn⟩ := hok text rfl
      have hsettles : ctx.Settles i text := (sound_toDepth n).settles hraw hn
      simp only [hrun]
      exact ⟨fun text' ht => Except.ok.inj ht ▸ hsettles, hs.remember hsettles⟩

theorem Truthful.contentOf (stack : List Frame) (i : ctx.store.Id) (s : Session ctx.store)
    (h : ctx.Truthful s) :
    (∀ text, (ctx.contentOf stack i s).1 = .ok text → ctx.Settles i text) ∧
      ctx.Truthful (ctx.contentOf stack i s).2 := by
  induction stack using ctx.stack_induction generalizing i s with
  | step stack ih =>
    rw [contentOf_eq]
    split
    next => exact ⟨fun text ht => by simp at ht, h⟩
    next hcycle =>
      split
      next text hmemo => exact ⟨fun text' ht => Except.ok.inj ht ▸ h i text hmemo, h⟩
      next => exact Truthful.workOut (ih i hcycle) i h

def Under (ctx : Context) (ids : List ctx.store.Id) (j : ctx.store.Id) : Prop :=
  ctx.Found j ∧ ∀ b ∈ ids, ctx.Found b ∧ ctx.Leads b j

theorem Under.push (h : ctx.Under ids i) (hj : ctx.Found j) (hlead : ctx.Leads i j) :
    ctx.Under (ids ++ [i]) j := by
  refine ⟨hj, fun b hb => ?_⟩
  rcases List.mem_append.1 hb with hb | hb
  · exact ⟨(h.2 b hb).1, (h.2 b hb).2.trans hlead⟩
  · rw [List.mem_singleton.1 hb]
    exact ⟨h.1, hlead⟩

theorem Under.cycle?_eq_none (hstore : ctx.store.ColonFree) (h : ctx.Under ids i)
    (hi : ctx.Settles i text) : cycle? (ids.map ctx.frame) (ctx.frame i) = none := by
  rw [cycle?_eq_none_iff]
  intro f hf hkey
  obtain ⟨b, hb, rfl⟩ := List.mem_map.1 hf
  obtain ⟨hfound, hlead⟩ := h.2 b hb
  obtain rfl := hfound.eq_of_key hstore h.1 hkey
  exact hlead.not_settles hi

theorem Under.anew_eq_ok (hstore : ctx.store.ColonFree) (h : ctx.Under ids i)
    (hi : ctx.Settles i text) : ctx.anew (ids.map ctx.frame) i = .ok text := by
  have hcycle := h.cycle?_eq_none hstore hi
  obtain ⟨n, hn⟩ := hi
  -- What the block asks for settles at a smaller depth, and the longer stack leads there.
  induction n generalizing ids i text with
  | zero => simp [toDepth] at hn
  | succ n ih =>
    obtain ⟨raw, hraw, heval⟩ := toDepth_succ_eq_ok.1 hn
    simp only [anew_eq, hcycle, hraw]
    refine Dialogue.eval_eq_ok_of_asks heval fun j text' hj hj' => ?_
    have hunder := h.push (Dialogue.of_asks (ctx.every_dialogue raw) hj)
      ((sound_toDepth n).leads hraw hj)
    have := ih hunder (hunder.cycle?_eq_none hstore ⟨n, hj'⟩) hj'
    simpa using this

theorem Under.fst_contentOf (hstore : ctx.store.ColonFree) (h : ctx.Under ids i)
    (hs : ctx.Truthful s) :
    (ctx.contentOf (ids.map ctx.frame) i s).1 = ctx.anew (ids.map ctx.frame) i := by
  induction hstack : ids.map ctx.frame using ctx.stack_induction generalizing ids i s with
  | step stack ih =>
    subst hstack
    rw [contentOf_eq, anew_eq]
    split
    next => rfl
    next hcycle =>
      split
      next text hmemo =>
        -- It was remembered under another stack, but what has settled is on no cycle.
        have := h.anew_eq_ok hstore (hs i text hmemo)
        rwa [anew_eq, hcycle, eq_comm] at this
      next =>
        apply ctx.fst_workOut (I := ctx.Truthful) (fun s s' hmemo hs => hs.of_memo_eq hmemo) ?_ hs
        intro raw j s hraw hj hs
        have hunder := h.push (Dialogue.of_asks (ctx.every_dialogue _) hj)
          ((ctx.sound_anew _).leads hraw hj)
        exact ⟨ih i hcycle hunder hs (by simp), (Truthful.contentOf _ j s hs).2⟩

theorem Truthful.start : ctx.Truthful (ctx.start []) := by
  intro i text hi
  simp [Context.start] at hi

theorem Truthful.resolve {memo : List (ctx.store.Id × Text)} (h : ctx.Truthful (ctx.start memo))
    (text : Text) : ctx.Truthful (ctx.start (ctx.resolve memo text).2.memo) := by
  rw [Context.resolve, expandWith_eq_run]
  exact ((Truthful.run (Truthful.contentOf []) (ctx.dialogue text) h).2).of_memo_eq rfl

theorem fst_resolve {memo : List (ctx.store.Id × Text)} (hstore : ctx.store.ColonFree)
    (h : ctx.Truthful (ctx.start memo)) (text : Text) :
    (ctx.resolve memo text).1 = (ctx.dialogue text).eval (ctx.anew []) := by
  rw [Context.resolve, expandWith_eq_run]
  refine (Dialogue.run_eq_eval (fun j s hj hs => ⟨?_, (Truthful.contentOf [] j s hs).2⟩)
    (fun name line s hs => hs.of_memo_eq (ctx.memo_unresolved name line s)) h).1
  have hunder : ctx.Under [] j := ⟨Dialogue.of_asks (ctx.every_dialogue text) hj, by simp⟩
  exact hunder.fst_contentOf hstore hs

def resolveAnew (ctx : Context) (text : Text) : Result ctx.store Text :=
  ctx.expandWith (ctx.contentAnew []) text (ctx.start [])

theorem fst_resolveAnew (text : Text) :
    (ctx.resolveAnew text).1 = (ctx.dialogue text).eval (ctx.anew []) := by
  rw [resolveAnew, expandWith_eq_run]
  exact (Dialogue.run_eq_eval (I := fun _ => True)
    (fun j s _ _ => ⟨ctx.fst_contentAnew [] j s, trivial⟩) (fun _ _ _ _ => trivial) trivial).1

end Context

inductive Call
  | resolve (text : Text)
  | body (r : Region)
  deriving DecidableEq, Repr

def Call.text : Call → Text
  | resolve text => text
  | body r => r.body.dropFinalLf

namespace Context

variable (ctx : Context)

def answer (memo : List (ctx.store.Id × Text)) : Call → Result ctx.store Text
  | .resolve text => ctx.resolve memo text
  | .body r => ctx.body memo r

def answers (memo : List (ctx.store.Id × Text)) : List Call → List (Except Failure Text)
  | [] => []
  | call :: calls =>
    let (result, s) := ctx.answer memo call
    result :: answers s.memo calls

def memoAfter (memo : List (ctx.store.Id × Text)) : List Call → List (ctx.store.Id × Text)
  | [] => memo
  | call :: calls => memoAfter (ctx.answer memo call).2.memo calls

def answerAnew : Call → Except Failure Text
  | .resolve text => (ctx.resolveAnew text).1
  | .body r => (ctx.resolveAnew r.body.dropFinalLf).1

variable {ctx} {memo : List (ctx.store.Id × Text)}

theorem answer_eq (call : Call) : ctx.answer memo call = ctx.resolve memo call.text := by
  cases call <;> rfl

theorem answerAnew_eq (call : Call) : ctx.answerAnew call = (ctx.resolveAnew call.text).1 := by
  cases call <;> rfl

theorem Truthful.answer (h : ctx.Truthful (ctx.start memo)) (call : Call) :
    ctx.Truthful (ctx.start (ctx.answer memo call).2.memo) := by
  rw [answer_eq]
  exact h.resolve call.text

theorem Truthful.memoAfter (h : ctx.Truthful (ctx.start memo)) (calls : List Call) :
    ctx.Truthful (ctx.start (ctx.memoAfter memo calls)) := by
  induction calls generalizing memo with
  | nil => exact h
  | cons call calls ih => exact ih (h.answer call)

theorem fst_answer (hstore : ctx.store.ColonFree) (h : ctx.Truthful (ctx.start memo))
    (call : Call) : (ctx.answer memo call).1 = ctx.answerAnew call := by
  rw [answer_eq, answerAnew_eq, fst_resolve hstore h, fst_resolveAnew]

theorem answers_eq_map (hstore : ctx.store.ColonFree) (h : ctx.Truthful (ctx.start memo))
    (calls : List Call) : ctx.answers memo calls = calls.map ctx.answerAnew := by
  induction calls generalizing memo with
  | nil => rfl
  | cons call calls ih =>
    simp only [answers, List.map_cons, fst_answer hstore h]
    rw [ih (h.answer call)]

/-- Calls on one resolver answer as if nothing was ever remembered, so what a call answers does not
depend on the calls before it. All names that the lexer gives are fit for this. -/
theorem answers_eq_map_answerAnew (ctx : Context) (hstore : ctx.store.ColonFree)
    (calls : List Call) :
    ctx.answers [] calls = calls.map ctx.answerAnew ∧
      (∀ before call, (ctx.answer (ctx.memoAfter [] before) call).1 = (ctx.answer [] call).1) ∧
      ∀ source relDir text, (lex source relDir text).store.ColonFree := by
  refine ⟨answers_eq_map hstore .start calls, fun before call => ?_, colonFree_lex⟩
  rw [fst_answer hstore (Truthful.start.memoAfter before), fst_answer hstore .start]

def nested : Context where
  store := ⟨[.code ⟨⟨"d.md", "x \x7b\x7b\x7b b \x7d\x7d\x7d\n", 1, 3⟩, "a"⟩,
    .code ⟨⟨"d.md", "1\n", 5, 7⟩, "b"⟩,
    .code ⟨⟨"d.md", "\x7b\x7b\x7bb\x7d\x7d\x7d\x7b\x7b\x7bc\x7d\x7d\x7d\n", 9, 11⟩, "c"⟩]⟩
  options := .defaults
  base := ⟨"/"⟩
  fetch _ := .error (.tagNotFound [] [])

theorem answers_nested :
    nested.store.ColonFree ∧
      nested.answers [] [.resolve (placeholder "c"), .resolve (placeholder "a"),
          .resolve (placeholder "c")] =
        [.resolve (placeholder "c"), .resolve (placeholder "a"), .resolve (placeholder "c")].map
          nested.answerAnew :=
  ⟨by decide, (answers_eq_map_answerAnew nested (by decide) _).1⟩

end Context

end Tangle.Expansion
