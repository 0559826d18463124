import Tangle.Proofs.Expansion.Dialogue

namespace Tangle.Expansion

open Text

namespace Dialogue

variable {s : Store} {α : Type} {c c' : s.Id → Except Failure Text} {p : Dialogue s α} {a : α}
  {j : s.Id}

theorem eval_eq_ok_of_asks (h : p.eval c = .ok a)
    (hc : ∀ i text, p.Asks c i → c i = .ok text → c' i = .ok text) : p.eval c' = .ok a := by
  induction p with
  | done b => exact h
  | fail f => simp [eval] at h
  | ask i next ih =>
    cases hi : c i with
    | error f => simp [eval, hi] at h
    | ok text =>
      simp only [eval, hi, hc i text (.inl rfl) hi] at h ⊢
      exact ih text h fun k t hk => hc k t (.inr ⟨text, hi, hk⟩)
  | tell name line next ih => exact ih h hc

theorem eval_mono (h : p.eval c = .ok a) (hc : ∀ i text, c i = .ok text → c' i = .ok text) :
    p.eval c' = .ok a :=
  eval_eq_ok_of_asks h fun i text _ => hc i text

theorem exists_ok_of_asks (hc : ∀ i text text', c i = .ok text → c' i = .ok text' → text = text')
    (hj : p.Asks c j) (h : p.eval c' = .ok a) : ∃ text, c' j = .ok text := by
  induction p with
  | done b => exact hj.elim
  | fail f => exact hj.elim
  | ask i next ih =>
    cases hi : c' i with
    | error f => simp [eval, hi] at h
    | ok text =>
      simp only [eval, hi] at h
      rcases hj with rfl | ⟨text', hi', hj⟩
      · exact ⟨text, hi⟩
      · obtain rfl := hc i text' text hi' hi
        exact ih text' hj h
  | tell name line next ih => exact ih hj h

end Dialogue

namespace Context

variable (ctx : Context)

theorem exists_raw_eq (b : Block) : ∃ notes, ∀ s,
    ctx.raw b s = ((ctx.raw b {}).1, { s with log := s.log ++ notes }) := by
  cases b with
  | reference r =>
    simp only [raw]
    cases ctx.fetch r.ref with
    | ok text => exact ⟨[], by simp⟩
    | error f =>
      cases f with
      | tagNotClosed => exact ⟨[_], fun _ => rfl⟩
      | _ => exact ⟨[], by simp⟩
  | _ => exact ⟨[], by simp [raw]⟩

theorem raw_fst (b : Block) (s s' : Session ctx.store) : (ctx.raw b s).1 = (ctx.raw b s').1 := by
  cases ctx.exists_raw_eq b with
  | intro notes hraw => rw [hraw s, hraw s']

theorem memo_raw (b : Block) (s : Session ctx.store) : (ctx.raw b s).2.memo = s.memo := by
  cases ctx.exists_raw_eq b with
  | intro notes hraw => rw [hraw s]

def rawText (i : ctx.store.Id) : Except Failure Text :=
  (ctx.raw (ctx.store.get i) {}).1.map dropFinalLf

theorem rawText_eq (i : ctx.store.Id) (s : Session ctx.store) :
    ctx.rawText i = (ctx.raw (ctx.store.get i) s).1.map dropFinalLf := by
  rw [rawText, ctx.raw_fst _ {} s]

def toDepth : Nat → ctx.store.Id → Except Failure Text
  | 0, i => .error (.cyclic [(ctx.frame i).name])
  | n + 1, i =>
    match ctx.rawText i with
    | .error f => .error f
    | .ok raw => (ctx.dialogue raw).eval (toDepth n)

def Settles (i : ctx.store.Id) (text : Text) : Prop := ∃ n, ctx.toDepth n i = .ok text

def Sound (c : ctx.store.Id → Except Failure Text) : Prop :=
  ∀ i text, c i = .ok text → ctx.Settles i text

def Leads (b j : ctx.store.Id) : Prop :=
  ∀ n text, ctx.toDepth n b = .ok text → ∃ m < n, ∃ text', ctx.toDepth m j = .ok text'

variable {ctx} {i j k : ctx.store.Id} {c : ctx.store.Id → Except Failure Text} {n m : Nat}
  {raw text text' : Text}

theorem toDepth_succ_eq_ok : ctx.toDepth (n + 1) i = .ok text ↔
    ∃ raw, ctx.rawText i = .ok raw ∧ (ctx.dialogue raw).eval (ctx.toDepth n) = .ok text := by
  simp only [toDepth]
  cases ctx.rawText i <;> simp

theorem toDepth_mono (h : ctx.toDepth n i = .ok text) (hle : n ≤ m) :
    ctx.toDepth m i = .ok text := by
  induction n generalizing i text m with
  | zero => simp [toDepth] at h
  | succ n ih =>
    cases m with
    | zero => simp at hle
    | succ m =>
      obtain ⟨raw, hraw, heval⟩ := toDepth_succ_eq_ok.1 h
      refine toDepth_succ_eq_ok.2 ⟨raw, hraw, Dialogue.eval_mono heval ?_⟩
      intro j text hj
      exact ih hj (Nat.le_of_succ_le_succ hle)

theorem Settles.unique (h : ctx.Settles i text) (h' : ctx.Settles i text') : text = text' := by
  obtain ⟨n, hn⟩ := h
  obtain ⟨m, hm⟩ := h'
  have hn := toDepth_mono hn (Nat.le_max_left n m)
  have hm := toDepth_mono hm (Nat.le_max_right n m)
  exact Except.ok.inj (hn.symm.trans hm)

theorem sound_toDepth (n : Nat) : ctx.Sound (ctx.toDepth n) := fun _ _ h => ⟨n, h⟩

theorem Settles.exists_depth_ask {α : Type} {next : Text → Dialogue ctx.store α} {a : α}
    (hi : ctx.Settles i text) (h : ∃ n, (next text).eval (ctx.toDepth n) = .ok a) :
    ∃ n, (Dialogue.ask i next).eval (ctx.toDepth n) = .ok a := by
  obtain ⟨n, hn⟩ := hi
  obtain ⟨m, hm⟩ := h
  refine ⟨max n m, ?_⟩
  simp only [Dialogue.eval, toDepth_mono hn (Nat.le_max_left n m)]
  exact Dialogue.eval_mono hm fun j t hj => toDepth_mono hj (Nat.le_max_right n m)

theorem Sound.exists_depth {α : Type} {p : Dialogue ctx.store α} {a : α} (hc : ctx.Sound c)
    (h : p.eval c = .ok a) : ∃ n, p.eval (ctx.toDepth n) = .ok a := by
  induction p with
  | done b => exact ⟨0, h⟩
  | fail f => simp [Dialogue.eval] at h
  | ask i next ih =>
    cases hi : c i with
    | error f => simp [Dialogue.eval, hi] at h
    | ok text =>
      simp only [Dialogue.eval, hi] at h
      exact (hc i text hi).exists_depth_ask (ih text h)
  | tell name line next ih => exact ih h

theorem Sound.settles (hc : ctx.Sound c) (hraw : ctx.rawText i = .ok raw)
    (h : (ctx.dialogue raw).eval c = .ok text) : ctx.Settles i text := by
  obtain ⟨n, hn⟩ := hc.exists_depth h
  exact ⟨n + 1, toDepth_succ_eq_ok.2 ⟨raw, hraw, hn⟩⟩

theorem Leads.trans (h : ctx.Leads i j) (h' : ctx.Leads j k) : ctx.Leads i k := by
  intro n text hn
  obtain ⟨m, hm, text', hj⟩ := h n text hn
  obtain ⟨l, hl, hk⟩ := h' m text' hj
  exact ⟨l, hl.trans hm, hk⟩

theorem Sound.leads (hc : ctx.Sound c) (hraw : ctx.rawText i = .ok raw)
    (h : (ctx.dialogue raw).Asks c j) : ctx.Leads i j := by
  intro n text hn
  cases n with
  | zero => simp [toDepth] at hn
  | succ n =>
    obtain ⟨raw', hraw', heval⟩ := toDepth_succ_eq_ok.1 hn
    obtain rfl := Except.ok.inj (hraw.symm.trans hraw')
    refine ⟨n, n.lt_succ_self, Dialogue.exists_ok_of_asks ?_ h heval⟩
    intro k text text' hk hk'
    exact (hc k text hk).unique ⟨n, hk'⟩

theorem Leads.not_settles (h : ctx.Leads i i) : ¬ ctx.Settles i text := by
  rintro ⟨n, hn⟩
  -- The depth would have to get smaller without end.
  induction n using Nat.strong_induction_on generalizing text with
  | _ n ih =>
    obtain ⟨m, hm, text', hm'⟩ := h n text hn
    exact ih m hm hm'

end Context

end Tangle.Expansion
