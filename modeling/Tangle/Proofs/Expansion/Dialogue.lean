import Tangle.Proofs.Expansion.Lookup

/-!
An expansion seen from outside. It asks for the texts of blocks one after the other, and what it
asks next depends on the answers. The expansion of a text is one dialogue, whoever gives the answers
(`expandWith_eq_run`), so respondents can be compared without looking into lines and placeholders.
-/

namespace Tangle.Expansion

open Text

def Failure.IsOwn : Failure → Prop
  | unresolved _ _ => True
  | limit _ _ => True
  | _ => False

inductive Dialogue (s : Store) (α : Type) : Type
  | done (a : α)
  | fail (f : Failure)
  | ask (i : s.Id) (next : Text → Dialogue s α)
  | tell (name : Text) (line : Nat) (next : Dialogue s α)

/-- Who answers. Answers depend on a state and change it. -/
structure Respondent (s : Store) (σ ε : Type) where
  content : s.Id → σ → Except ε Text × σ
  hear : Text → Nat → σ → σ
  failure : Failure → ε
  within : ε → ε

namespace Dialogue

variable {s : Store} {α β γ σ τ ε δ : Type}

def bind : Dialogue s α → (α → Dialogue s β) → Dialogue s β
  | done a, k => k a
  | fail f, _ => fail f
  | ask i next, k => ask i fun text => (next text).bind k
  | tell name line next, k => tell name line (next.bind k)

def run (r : Respondent s σ ε) : Dialogue s α → σ → Except ε α × σ
  | done a, st => (.ok a, st)
  | fail f, st => (.error (r.failure f), st)
  | ask i next, st =>
    match r.content i st with
    | (.error e, st) => (.error (r.within e), st)
    | (.ok text, st) => (next text).run r st
  | tell name line next, st => next.run r (r.hear name line st)

def eval (c : s.Id → Except Failure Text) : Dialogue s α → Except Failure α
  | done a => .ok a
  | fail f => .error f
  | ask i next =>
    match c i with
    | .error f => .error f.within
    | .ok text => (next text).eval c
  | tell _ _ next => next.eval c

def Asks (c : s.Id → Except Failure Text) : Dialogue s α → s.Id → Prop
  | done _, _ => False
  | fail _, _ => False
  | ask i next, j => j = i ∨ ∃ text, c i = .ok text ∧ (next text).Asks c j
  | tell _ _ next, j => next.Asks c j

/-- Whatever the answers are, only blocks in `P` are asked for, and a failure that is not an answer
is in `F`. -/
def Every (P : s.Id → Prop) (F : Failure → Prop) : Dialogue s α → Prop
  | done _ => True
  | fail f => F f
  | ask i next => P i ∧ ∀ text, (next text).Every P F
  | tell _ _ next => next.Every P F

def Always (Q : α → Prop) : Dialogue s α → Prop
  | done a => Q a
  | fail _ => True
  | ask _ next => ∀ text, (next text).Always Q
  | tell _ _ next => next.Always Q

theorem bind_done (p : Dialogue s α) : p.bind done = p := by
  induction p with
  | done a => rfl
  | fail f => rfl
  | ask i next ih => simp only [bind, ih]
  | tell name line next ih => simp only [bind, ih]

theorem bind_assoc (p : Dialogue s α) (k : α → Dialogue s β) (l : β → Dialogue s γ) :
    (p.bind k).bind l = p.bind fun a => (k a).bind l := by
  induction p with
  | done a => rfl
  | fail f => rfl
  | ask i next ih =>
    simp only [bind]
    congr 1
    funext text
    exact ih text
  | tell name line next ih => simp only [bind, ih]

theorem run_bind (r : Respondent s σ ε) (p : Dialogue s α) (k : α → Dialogue s β) (st : σ) :
    (p.bind k).run r st =
      match p.run r st with
      | (.error e, st) => (.error e, st)
      | (.ok a, st) => (k a).run r st := by
  induction p generalizing st with
  | done a => rfl
  | fail f => rfl
  | ask i next ih =>
    simp only [bind, run]
    split
    · rfl
    · exact ih _ _
  | tell name line next ih => exact ih _

theorem run_bind_eq_ok {r : Respondent s σ ε} {p : Dialogue s α} {k : α → Dialogue s β} {b : β}
    {st st' : σ} :
    (p.bind k).run r st = (.ok b, st') ↔
      ∃ a st₁, p.run r st = (.ok a, st₁) ∧ (k a).run r st₁ = (.ok b, st') := by
  rw [run_bind]
  rcases p.run r st with ⟨_ | a, st₁⟩ <;> simp

theorem run_along {r : Respondent s σ ε} {R : σ → σ → Prop} (hrefl : ∀ st, R st st)
    (htrans : ∀ st st₁ st₂, R st st₁ → R st₁ st₂ → R st st₂)
    (hcontent : ∀ i st, R st (r.content i st).2) (hhear : ∀ name line st, R st (r.hear name line st))
    (p : Dialogue s α) (st : σ) : R st (p.run r st).2 := by
  induction p generalizing st with
  | done a => exact hrefl st
  | fail f => exact hrefl st
  | ask i next ih =>
    have hi := hcontent i st
    simp only [run]
    split
    next st₁ heq =>
      rw [heq] at hi
      exact hi
    next text st₁ heq =>
      rw [heq] at hi
      exact htrans _ _ _ hi (ih text st₁)
  | tell name line next ih => exact htrans _ _ _ (hhear name line st) (ih _)

theorem eval_bind (c : s.Id → Except Failure Text) (p : Dialogue s α) (k : α → Dialogue s β) :
    (p.bind k).eval c =
      match p.eval c with
      | .error f => .error f
      | .ok a => (k a).eval c := by
  induction p with
  | done a => rfl
  | fail f => rfl
  | ask i next ih =>
    simp only [bind, eval]
    split
    · rfl
    · exact ih _
  | tell name line next ih => exact ih

theorem eval_bind_eq_ok {c : s.Id → Except Failure Text} {p : Dialogue s α}
    {k : α → Dialogue s β} {b : β} :
    (p.bind k).eval c = .ok b ↔ ∃ a, p.eval c = .ok a ∧ (k a).eval c = .ok b := by
  rw [eval_bind]
  cases p.eval c <;> simp

theorem asks_bind {c : s.Id → Except Failure Text} {p : Dialogue s α} {k : α → Dialogue s β}
    {j : s.Id} :
    (p.bind k).Asks c j ↔ p.Asks c j ∨ ∃ a, p.eval c = .ok a ∧ (k a).Asks c j := by
  induction p with
  | done a => simp [bind, Asks, eval]
  | fail f => simp [bind, Asks, eval]
  | ask i next ih =>
    simp only [bind, Asks, eval, ih]
    cases c i with
    | error f => simp
    | ok text => simp [or_assoc]
  | tell name line next ih => exact ih

theorem Every.bind {P : s.Id → Prop} {F : Failure → Prop} {p : Dialogue s α}
    {k : α → Dialogue s β} (hp : p.Every P F) (hk : ∀ a, (k a).Every P F) :
    (p.bind k).Every P F := by
  induction p with
  | done a => exact hk a
  | fail f => exact hp
  | ask i next ih => exact ⟨hp.1, fun text => ih text (hp.2 text)⟩
  | tell name line next ih => exact ih hp

theorem always_true (p : Dialogue s α) : p.Always fun _ => True := by
  induction p with
  | done a => trivial
  | fail f => trivial
  | ask i next ih => exact ih
  | tell name line next ih => exact ih

theorem Always.bind {Q : α → Prop} {Q' : β → Prop} {p : Dialogue s α} {k : α → Dialogue s β}
    (hp : p.Always Q) (hk : ∀ a, Q a → (k a).Always Q') : (p.bind k).Always Q' := by
  induction p with
  | done a => exact hk a hp
  | fail f => trivial
  | ask i next ih => exact fun text => ih text (hp text)
  | tell name line next ih => exact ih hp

theorem Always.imp {Q Q' : α → Prop} {p : Dialogue s α} (h : ∀ a, Q a → Q' a)
    (hp : p.Always Q) : p.Always Q' := by
  rw [← bind_done p]
  exact hp.bind h

theorem Always.of_run {Q : α → Prop} {r : Respondent s σ ε} {p : Dialogue s α} {a : α}
    {st st' : σ} (hp : p.Always Q) (h : p.run r st = (.ok a, st')) : Q a := by
  induction p generalizing st with
  | done b =>
    obtain rfl : b = a := Except.ok.inj (congrArg Prod.fst h)
    exact hp
  | fail f => simp [run] at h
  | ask i next ih =>
    simp only [run] at h
    split at h
    next => simp at h
    next text _ _ => exact ih text (hp text) h
  | tell name line next ih => exact ih hp h

theorem Always.of_eval {Q : α → Prop} {c : s.Id → Except Failure Text} {p : Dialogue s α} {a : α}
    (hp : p.Always Q) (h : p.eval c = .ok a) : Q a := by
  induction p with
  | done b =>
    obtain rfl : b = a := Except.ok.inj h
    exact hp
  | fail f => simp [eval] at h
  | ask i next ih =>
    simp only [eval] at h
    split at h
    next => simp at h
    next text _ => exact ih text (hp text) h
  | tell name line next ih => exact ih hp h

theorem of_asks {P : s.Id → Prop} {F : Failure → Prop} {c : s.Id → Except Failure Text}
    {p : Dialogue s α} {j : s.Id} (hp : p.Every P F) (h : p.Asks c j) : P j := by
  induction p with
  | done a => exact h.elim
  | fail f => exact h.elim
  | ask i next ih =>
    rcases h with rfl | ⟨text, -, h⟩
    · exact hp.1
    · exact ih text (hp.2 text) h
  | tell name line next ih => exact ih hp h

theorem of_eval_eq_error {P : s.Id → Prop} {F : Failure → Prop}
    {c : s.Id → Except Failure Text} {p : Dialogue s α} {f : Failure} (hp : p.Every P F)
    (h : p.eval c = .error f) : F f ∨ ∃ j g, p.Asks c j ∧ c j = .error g ∧ f = g.within := by
  induction p with
  | done a => simp [eval] at h
  | fail g =>
    obtain rfl : g = f := by simpa [eval] using h
    exact .inl hp
  | ask i next ih =>
    simp only [eval] at h
    cases hi : c i with
    | error g =>
      rw [hi] at h
      exact .inr ⟨i, g, .inl rfl, hi, (Except.error.inj h).symm⟩
    | ok text =>
      rw [hi] at h
      rcases ih text (hp.2 text) h with hf | ⟨j, g, hj, hg⟩
      · exact .inl hf
      · exact .inr ⟨j, g, .inr ⟨text, hi, hj⟩, hg⟩
  | tell name line next ih => exact ih hp h

theorem run_related {r : Respondent s σ ε} {q : Respondent s τ δ} {R : σ → τ → Prop} {g : δ → ε}
    {P : s.Id → Prop} {F : Failure → Prop}
    (hcontent : ∀ i st st', P i → R st st' →
      (r.content i st).1 = (q.content i st').1.mapError g ∧
        R (r.content i st).2 (q.content i st').2)
    (hhear : ∀ name line st st', R st st' → R (r.hear name line st) (q.hear name line st'))
    (hfailure : ∀ f, r.failure f = g (q.failure f)) (hwithin : ∀ e, r.within (g e) = g (q.within e))
    {p : Dialogue s α} (hp : p.Every P F) {st : σ} {st' : τ} (h : R st st') :
    (p.run r st).1 = (p.run q st').1.mapError g ∧ R (p.run r st).2 (p.run q st').2 := by
  induction p generalizing st st' with
  | done a => exact ⟨rfl, h⟩
  | fail f => exact ⟨congrArg Except.error (hfailure f), h⟩
  | ask i next ih =>
    obtain ⟨hi, hR⟩ := hcontent i st st' hp.1 h
    simp only [run]
    rcases hq : q.content i st' with ⟨_ | text, st₁'⟩
    · rcases hr : r.content i st with ⟨_ | _, st₁⟩
      · simp only [hr, hq, Except.mapError, Except.error.injEq] at hi hR ⊢
        exact ⟨by rw [hi, hwithin], hR⟩
      · simp [hr, hq, Except.mapError] at hi
    · rcases hr : r.content i st with ⟨_ | _, st₁⟩
      · simp [hr, hq, Except.mapError] at hi
      · simp only [hr, hq, Except.mapError, Except.ok.injEq] at hi hR ⊢
        subst hi
        exact ih _ (hp.2 _) hR
  | tell name line next ih => exact ih hp (hhear name line st st' h)

theorem run_eq_eval {content : s.Id → σ → Except Failure Text × σ} {hear : Text → Nat → σ → σ}
    {c : s.Id → Except Failure Text} {I : σ → Prop} {p : Dialogue s α}
    (hcontent : ∀ i st, p.Asks c i → I st → (content i st).1 = c i ∧ I (content i st).2)
    (hhear : ∀ name line st, I st → I (hear name line st)) {st : σ} (h : I st) :
    (p.run ⟨content, hear, id, Failure.within⟩ st).1 = p.eval c ∧
      I (p.run ⟨content, hear, id, Failure.within⟩ st).2 := by
  induction p generalizing st with
  | done a => exact ⟨rfl, h⟩
  | fail f => exact ⟨rfl, h⟩
  | ask i next ih =>
    obtain ⟨hi, hI⟩ := hcontent i st (.inl rfl) h
    simp only [run, eval, ← hi]
    rcases hr : content i st with ⟨f | text, st₁⟩
    · exact ⟨rfl, by simpa [hr] using hI⟩
    · rw [hr] at hi hI
      refine ih text (fun j st' hj => hcontent j st' (.inr ⟨text, hi.symm, hj⟩)) hI
  | tell name line next ih => exact ih hcontent (hhear name line st h)

end Dialogue

namespace Context

variable (ctx : Context)

def segmentDialogue (indent : Text) (line : Nat) : Segment → Dialogue ctx.store (Text × Nat)
  | .byte b => .done ([b], 0)
  | .token run =>
    match ctx.find? (tokenName run) with
    | none =>
      if ctx.options.unresolved = .error then .fail (.unresolved (tokenName run) line)
      else .tell (tokenName run) line (.done ((Segment.token run).text, 0))
    | some i =>
      .ask i fun text =>
        let b := ctx.store.get i
        .done (hang indent (ctx.provenance b (b.name?.getD []) ++ text), 1)

def segmentsDialogue (indent : Text) (line : Nat) :
    List Segment → Dialogue ctx.store (Text × Nat)
  | [] => .done ([], 0)
  | segment :: rest =>
    (ctx.segmentDialogue indent line segment).bind fun (text, n) =>
      (segmentsDialogue indent line rest).bind fun (more, m) => .done (text ++ more, n + m)

def lineDialogue (line : Nat) (text : Text) : Dialogue ctx.store (Text × Nat) :=
  ctx.segmentsDialogue (indentation text) line (segments text)

def linesDialogue (line : Nat) : List Text → Dialogue ctx.store (List Text × Nat)
  | [] => .done ([], 0)
  | text :: rest =>
    (ctx.lineDialogue line text).bind fun (text, n) =>
      (linesDialogue (line + 1) rest).bind fun (more, m) => .done (text :: more, n + m)

def passesDialogue : Nat → Text → Dialogue ctx.store Text
  | 0, text => .fail (.limit ctx.options.maxPasses text)
  | passes + 1, text =>
    (ctx.linesDialogue 1 (split lf text)).bind fun
      | (lines, 0) => .done (join [lf] lines)
      | (lines, _ + 1) => passesDialogue passes (join [lf] lines)

def dialogue (text : Text) : Dialogue ctx.store Text :=
  ctx.passesDialogue (ctx.options.maxPasses + 1) text

section Options

variable (options : Options) (fetch : Ref → Except Extract.Failure Text)
  (hunresolved : options.unresolved = ctx.options.unresolved)
  (hsource : options.outputSource = ctx.options.outputSource)
  (habsolute : options.absoluteSources = ctx.options.absoluteSources)

include hunresolved hsource habsolute

theorem segmentDialogue_mk (indent : Text) (line : Nat) (segment : Segment) :
    (mk ctx.store options ctx.base fetch).segmentDialogue indent line segment =
      ctx.segmentDialogue indent line segment := by
  cases segment with
  | byte b => rfl
  | token run =>
    simp only [segmentDialogue, find?_mk, hunresolved]
    cases ctx.find? (tokenName run) with
    | none => rfl
    | some i => simp only [provenance, hsource, habsolute]

theorem segmentsDialogue_mk (indent : Text) (line : Nat) (parts : List Segment) :
    (mk ctx.store options ctx.base fetch).segmentsDialogue indent line parts =
      ctx.segmentsDialogue indent line parts := by
  induction parts with
  | nil => rfl
  | cons segment rest ih =>
    simp only [segmentsDialogue, ctx.segmentDialogue_mk options fetch hunresolved hsource
      habsolute, ih]

theorem linesDialogue_mk (line : Nat) (lines : List Text) :
    (mk ctx.store options ctx.base fetch).linesDialogue line lines =
      ctx.linesDialogue line lines := by
  induction lines generalizing line with
  | nil => rfl
  | cons text rest ih =>
    simp only [linesDialogue, lineDialogue,
      ctx.segmentsDialogue_mk options fetch hunresolved hsource habsolute, ih]

end Options

def respondent (content : ctx.Content) : Respondent ctx.store (Session ctx.store) Failure :=
  ⟨content, fun name line s => (ctx.unresolved name line s).2, id, Failure.within⟩

variable (content : ctx.Content)

theorem expandSegment_eq_run (indent : Text) (line : Nat) (segment : Segment)
    (s : Session ctx.store) :
    ctx.expandSegment content indent line segment s =
      (ctx.segmentDialogue indent line segment).run (ctx.respondent content) s := by
  cases segment with
  | byte b => rfl
  | token run =>
    simp only [expandSegment, segmentDialogue]
    cases ctx.find? (tokenName run) with
    | none =>
      by_cases h : ctx.options.unresolved = .error
      · simp [unresolved, h, Dialogue.run, respondent]
      · simp only [h, if_false, Dialogue.run, respondent]
        unfold unresolved
        split
        next hfail =>
          split at hfail
          next hpolicy => exact absurd hpolicy h
          next => split at hfail <;> simp at hfail
          next => simp at hfail
        next hok => rw [hok]
    | some i =>
      simp only [Dialogue.run, respondent]
      rcases content i s with ⟨_ | _, _⟩ <;> rfl

theorem expandSegments_eq_run (indent : Text) (line : Nat) (parts : List Segment)
    (s : Session ctx.store) :
    ctx.expandSegments content indent line parts s =
      (ctx.segmentsDialogue indent line parts).run (ctx.respondent content) s := by
  induction parts generalizing s with
  | nil => rfl
  | cons segment rest ih =>
    simp only [expandSegments, segmentsDialogue, Dialogue.run_bind, expandSegment_eq_run, ih]
    rcases (ctx.segmentDialogue indent line segment).run _ s with ⟨_ | ⟨text, n⟩, s⟩
    · rfl
    · dsimp only
      rcases (ctx.segmentsDialogue indent line rest).run _ s with ⟨_ | ⟨more, m⟩, s⟩ <;> rfl

theorem expandLine_eq_run (line : Nat) (text : Text) (s : Session ctx.store) :
    ctx.expandLine content line text s =
      (ctx.lineDialogue line text).run (ctx.respondent content) s :=
  ctx.expandSegments_eq_run content _ line _ s

theorem expandLines_eq_run (line : Nat) (lines : List Text) (s : Session ctx.store) :
    ctx.expandLines content line lines s =
      (ctx.linesDialogue line lines).run (ctx.respondent content) s := by
  induction lines generalizing line s with
  | nil => rfl
  | cons text rest ih =>
    simp only [expandLines, linesDialogue, Dialogue.run_bind, expandLine_eq_run, ih]
    rcases (ctx.lineDialogue line text).run _ s with ⟨_ | ⟨text, n⟩, s⟩
    · rfl
    · dsimp only
      rcases (ctx.linesDialogue (line + 1) rest).run _ s with ⟨_ | ⟨more, m⟩, s⟩ <;> rfl

theorem expandPasses_eq_run (passes : Nat) (text : Text) (s : Session ctx.store) :
    ctx.expandPasses content passes text s =
      (ctx.passesDialogue passes text).run (ctx.respondent content) s := by
  induction passes generalizing text s with
  | zero => rfl
  | succ passes ih =>
    simp only [expandPasses, passesDialogue, Dialogue.run_bind, expandLines_eq_run, ih]
    rcases (ctx.linesDialogue 1 (split lf text)).run _ s with ⟨_ | ⟨lines, _ | n⟩, s⟩ <;> rfl

theorem expandWith_eq_run (text : Text) (s : Session ctx.store) :
    ctx.expandWith content text s = (ctx.dialogue text).run (ctx.respondent content) s :=
  ctx.expandPasses_eq_run content _ text s

theorem every_segmentDialogue (indent : Text) (line : Nat) (segment : Segment) :
    (ctx.segmentDialogue indent line segment).Every ctx.Found Failure.IsOwn := by
  cases segment with
  | byte b => trivial
  | token run =>
    simp only [segmentDialogue]
    split
    next => split <;> trivial
    next i h => exact ⟨⟨_, h⟩, fun _ => trivial⟩

theorem every_segmentsDialogue (indent : Text) (line : Nat) (parts : List Segment) :
    (ctx.segmentsDialogue indent line parts).Every ctx.Found Failure.IsOwn := by
  induction parts with
  | nil => trivial
  | cons segment rest ih =>
    refine (ctx.every_segmentDialogue indent line segment).bind fun _ => ?_
    exact ih.bind fun _ => trivial

theorem every_linesDialogue (line : Nat) (lines : List Text) :
    (ctx.linesDialogue line lines).Every ctx.Found Failure.IsOwn := by
  induction lines generalizing line with
  | nil => trivial
  | cons text rest ih =>
    refine (ctx.every_segmentsDialogue _ line _).bind fun _ => ?_
    exact (ih (line + 1)).bind fun _ => trivial

theorem always_ne_nil_linesDialogue (line : Nat) {lines : List Text} (h : lines ≠ []) :
    (ctx.linesDialogue line lines).Always fun r => r.1 ≠ [] := by
  cases lines with
  | nil => exact absurd rfl h
  | cons text rest =>
    apply (Dialogue.always_true _).bind
    intro r _
    apply (Dialogue.always_true _).bind
    intro r' _
    exact List.cons_ne_nil r.1 r'.1

theorem every_passesDialogue (passes : Nat) (text : Text) :
    (ctx.passesDialogue passes text).Every ctx.Found Failure.IsOwn := by
  induction passes generalizing text with
  | zero => trivial
  | succ passes ih =>
    refine (ctx.every_linesDialogue 1 _).bind fun r => ?_
    rcases r with ⟨lines, _ | n⟩
    · trivial
    · exact ih _

theorem every_dialogue (text : Text) : (ctx.dialogue text).Every ctx.Found Failure.IsOwn :=
  ctx.every_passesDialogue _ text

def Shows (text : Text) (j : ctx.store.Id) : Prop :=
  ∃ line ∈ split lf text, ∃ name ∈ names line, ctx.find? name = some j

variable {ctx} {c : ctx.store.Id → Except Failure Text} {j : ctx.store.Id}

theorem exists_token_of_asks {indent : Text} {line : Nat} {parts : List Segment}
    (h : (ctx.segmentsDialogue indent line parts).Asks c j) :
    ∃ run, .token run ∈ parts ∧ ctx.find? (tokenName run) = some j := by
  induction parts with
  | nil => exact h.elim
  | cons segment rest ih =>
    rcases Dialogue.asks_bind.1 h with h | ⟨r, -, h⟩
    · cases segment with
      | byte b => exact h.elim
      | token run =>
        simp only [segmentDialogue] at h
        split at h
        next => split at h <;> exact h.elim
        next i hi =>
          rcases h with rfl | ⟨_, -, h⟩
          · exact ⟨run, List.mem_cons_self .., hi⟩
          · exact h.elim
    · rcases Dialogue.asks_bind.1 h with h | ⟨_, -, h⟩
      · obtain ⟨run, hmem, hrun⟩ := ih h
        exact ⟨run, List.mem_cons_of_mem _ hmem, hrun⟩
      · exact h.elim

theorem asks_of_token {indent : Text} {line : Nat} {parts : List Segment} {r : Text × Nat}
    {run : Text} (h : (ctx.segmentsDialogue indent line parts).eval c = .ok r)
    (hmem : .token run ∈ parts) (hrun : ctx.find? (tokenName run) = some j) :
    (ctx.segmentsDialogue indent line parts).Asks c j := by
  induction parts generalizing r with
  | nil => simp at hmem
  | cons segment rest ih =>
    obtain ⟨r', hsegment, hrest⟩ := Dialogue.eval_bind_eq_ok.1 h
    obtain ⟨r'', hrest, -⟩ := Dialogue.eval_bind_eq_ok.1 hrest
    rcases List.mem_cons.1 hmem with rfl | hmem
    · exact Dialogue.asks_bind.2 (.inl (by simp [segmentDialogue, hrun, Dialogue.Asks]))
    · exact Dialogue.asks_bind.2
        (.inr ⟨r', hsegment, Dialogue.asks_bind.2 (.inl (ih hrest hmem))⟩)

theorem mem_names {line name : Text} :
    name ∈ names line ↔ ∃ run, .token run ∈ segments line ∧ tokenName run = name := by
  simp only [names, List.mem_filterMap]
  constructor
  · rintro ⟨_ | run, hmem, hname⟩
    · simp at hname
    · exact ⟨run, hmem, by simpa using hname⟩
  · rintro ⟨run, hmem, hname⟩
    exact ⟨.token run, hmem, by simp [hname]⟩

theorem exists_name_of_asks {n : Nat} {lines : List Text}
    (h : (ctx.linesDialogue n lines).Asks c j) :
    ∃ line ∈ lines, ∃ name ∈ names line, ctx.find? name = some j := by
  induction lines generalizing n with
  | nil => exact h.elim
  | cons text rest ih =>
    rcases Dialogue.asks_bind.1 h with h | ⟨r, -, h⟩
    · obtain ⟨run, hmem, hrun⟩ := exists_token_of_asks h
      exact ⟨text, List.mem_cons_self .., tokenName run, mem_names.2 ⟨run, hmem, rfl⟩, hrun⟩
    · rcases Dialogue.asks_bind.1 h with h | ⟨_, -, h⟩
      · obtain ⟨line, hline, hname⟩ := ih h
        exact ⟨line, List.mem_cons_of_mem _ hline, hname⟩
      · exact h.elim

theorem asks_of_name {n : Nat} {lines : List Text} {r : List Text × Nat} {line name : Text}
    (h : (ctx.linesDialogue n lines).eval c = .ok r) (hline : line ∈ lines)
    (hname : name ∈ names line) (hj : ctx.find? name = some j) :
    (ctx.linesDialogue n lines).Asks c j := by
  induction lines generalizing n r with
  | nil => simp at hline
  | cons text rest ih =>
    obtain ⟨r', htext, hrest⟩ := Dialogue.eval_bind_eq_ok.1 h
    obtain ⟨r'', hrest, -⟩ := Dialogue.eval_bind_eq_ok.1 hrest
    rcases List.mem_cons.1 hline with rfl | hline
    · obtain ⟨run, hmem, rfl⟩ := mem_names.1 hname
      exact Dialogue.asks_bind.2 (.inl (asks_of_token htext hmem hj))
    · exact Dialogue.asks_bind.2
        (.inr ⟨r', htext, Dialogue.asks_bind.2 (.inl (ih hrest hline))⟩)

theorem asks_of_shows {text out : Text} (h : (ctx.dialogue text).eval c = .ok out)
    (hj : ctx.Shows text j) : (ctx.dialogue text).Asks c j := by
  obtain ⟨line, hline, name, hname, hfind⟩ := hj
  obtain ⟨r, hlines, -⟩ := Dialogue.eval_bind_eq_ok.1 h
  exact Dialogue.asks_bind.2 (.inl (asks_of_name hlines hline hname hfind))

end Context

end Tangle.Expansion
