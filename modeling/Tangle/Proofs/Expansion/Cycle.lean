import Tangle.Proofs.Expansion.Memo
import Mathlib.Data.List.Chain
import Mathlib.Logic.Relation

namespace Tangle.Expansion

open Text Relation

namespace Context

theorem cycle?_eq_some {stack : List Frame} {frame : Frame} {names : List Text}
    (h : cycle? stack frame = some names) :
    ∃ before f rest, stack = before ++ f :: rest ∧ f.key = frame.key ∧
      names = (f :: rest).map (·.name) ++ [frame.name] := by
  unfold cycle? at h
  split at h
  next => simp at h
  next hall =>
    have hsplit := List.takeWhile_append_dropWhile (p := (·.key ≠ frame.key)) (l := stack)
    have hhead := List.head?_dropWhile_not (·.key ≠ frame.key) stack
    cases hdrop : stack.dropWhile (·.key ≠ frame.key) with
    | nil =>
      rw [hdrop, List.append_nil] at hsplit
      refine absurd ?_ hall
      rw [← hsplit]
      exact List.all_takeWhile
    | cons f rest =>
      simp only [hdrop] at h hhead
      refine ⟨stack.takeWhile (·.key ≠ frame.key), f, rest, ?_, by simpa using hhead, ?_⟩
      · rw [← hdrop, hsplit]
      · exact (Option.some.inj h).symm

variable (ctx : Context)

def Mentions (b c : ctx.store.Id) : Prop := ∃ raw, ctx.rawText b = .ok raw ∧ ctx.Shows raw c

/-- The texts that are gone through when block `b` is expanded, by the number of passes before. -/
inductive Scanned (b : ctx.store.Id) : Nat → Text → Prop
  | first {raw : Text} : ctx.rawText b = .ok raw → Scanned b 0 raw
  | again {n m : Nat} {text : Text} {lines : List Text} : Scanned b n text →
    (ctx.expandLines (ctx.contentAnew []) 1 (split lf text) {}).1 = .ok (lines, m + 1) →
    Scanned b (n + 1) (join [lf] lines)

def Meets (b c : ctx.store.Id) : Prop :=
  ∃ n ≤ ctx.options.maxPasses, ∃ text, ctx.Scanned b n text ∧ ctx.Shows text c

variable {ctx} {a b i j : ctx.store.Id} {ids : List ctx.store.Id} {text : Text}
  {names : List Text}

theorem Mentions.leads (h : ctx.Mentions i j) : ctx.Leads i j := by
  intro n text hn
  cases n with
  | zero => simp [toDepth] at hn
  | succ n =>
    obtain ⟨raw, hraw, heval⟩ := toDepth_succ_eq_ok.1 hn
    obtain ⟨raw', hraw', hshows⟩ := h
    obtain rfl := Except.ok.inj (hraw'.symm.trans hraw)
    exact (sound_toDepth n).leads hraw (asks_of_shows heval hshows) (n + 1) text hn

theorem Leads.settles (h : ctx.Leads i j) (hi : ctx.Settles i text) :
    ∃ text', ctx.Settles j text' := by
  obtain ⟨n, hn⟩ := hi
  obtain ⟨m, -, text', hm⟩ := h n text hn
  exact ⟨text', m, hm⟩

theorem settles_of_reflTransGen (h : ReflTransGen ctx.Mentions a b) (ha : ctx.Settles a text) :
    ∃ text', ctx.Settles b text' := by
  induction h with
  | refl => exact ⟨text, ha⟩
  | tail _ hstep ih =>
    obtain ⟨text', hb⟩ := ih
    exact hstep.leads.settles hb

theorem leads_of_transGen (h : TransGen ctx.Mentions a b) : ctx.Leads a b := by
  induction h with
  | single h => exact h.leads
  | tail _ hstep ih => exact ih.trans hstep.leads

theorem not_transGen_of_settles (ha : ctx.Settles a text) (h : ReflTransGen ctx.Mentions a b) :
    ¬ TransGen ctx.Mentions b b := by
  intro hcycle
  obtain ⟨text', hb⟩ := settles_of_reflTransGen h ha
  exact (leads_of_transGen hcycle).not_settles hb

theorem settles_of_resolve {memo : List (ctx.store.Id × Text)} {out : Text}
    (hmemo : ctx.Truthful (ctx.start memo)) (h : (ctx.resolve memo text).1 = .ok out)
    (ha : ctx.Shows text a) : ∃ text', ctx.Settles a text' := by
  rw [resolve, expandWith_eq_run] at h
  obtain ⟨n, hn⟩ := (Truthful.run (Truthful.contentOf []) (ctx.dialogue text) hmemo).1 out h
  obtain ⟨text', ha⟩ := Dialogue.exists_ok_of_asks (c := ctx.toDepth n)
    (fun k t t' ht ht' => Except.ok.inj (ht.symm.trans ht')) (asks_of_shows hn ha) hn
  exact ⟨text', n, ha⟩

theorem anew_mono {stack stack' : List Frame} (hsub : stack ⊆ stack')
    (h : ctx.anew stack' i = .ok text) : ctx.anew stack i = .ok text := by
  induction stack' using ctx.stack_induction generalizing stack i text with
  | step stack' ih =>
    rw [anew_eq] at h ⊢
    split at h
    next => simp at h
    next hcycle =>
      have hcycle' : cycle? stack (ctx.frame i) = none :=
        cycle?_eq_none_iff.2 fun f hf => cycle?_eq_none_iff.1 hcycle f (hsub hf)
      rw [hcycle']
      split at h
      next => simp at h
      next raw hraw =>
        refine Dialogue.eval_mono h fun j text' hj => ih i hcycle ?_ hj
        exact List.append_subset.2
          ⟨fun f hf => List.mem_append_left _ (hsub hf), List.subset_append_right ..⟩

theorem fst_expandLines_contentAnew (line : Nat) (lines : List Text) (s : Session ctx.store) :
    (ctx.expandLines (ctx.contentAnew []) line lines s).1 =
      (ctx.linesDialogue line lines).eval (ctx.anew []) := by
  rw [expandLines_eq_run]
  exact (Dialogue.run_eq_eval (I := fun _ => True)
    (fun j s _ _ => ⟨ctx.fst_contentAnew [] j s, trivial⟩) (fun _ _ _ _ => trivial) trivial).1

theorem meets_of_asks {stack : List Frame} {passes n : Nat} (hscan : ctx.Scanned b n text)
    (hn : n + passes = ctx.options.maxPasses + 1)
    (h : (ctx.passesDialogue passes text).Asks (ctx.anew stack) j) : ctx.Meets b j := by
  induction passes generalizing n text with
  | zero => exact h.elim
  | succ passes ih =>
    rcases Dialogue.asks_bind.1 h with h | ⟨⟨lines, _ | m⟩, hlines, h⟩
    · exact ⟨n, by omega, text, hscan, exists_name_of_asks h⟩
    · exact h.elim
    · refine ih (.again hscan (m := m) ?_) (by omega) h
      rw [fst_expandLines_contentAnew]
      exact Dialogue.eval_mono hlines fun k t hk => anew_mono (List.nil_subset _) hk

theorem rawText_ne_cyclic (i : ctx.store.Id) : ctx.rawText i ≠ .error (.cyclic names) := by
  unfold rawText
  cases ctx.store.get i with
  | reference r =>
    simp only [raw]
    cases ctx.fetch r.ref with
    | ok text => simp [Except.map]
    | error f => cases f <;> simp [Except.map]
  | _ => simp [raw, Except.map]

theorem exists_asks_of_cyclic {c : ctx.store.Id → Except Failure Text}
    (h : (ctx.dialogue text).eval c = .error (.cyclic names)) :
    ∃ j, (ctx.dialogue text).Asks c j ∧ c j = .error (.cyclic names) := by
  rcases Dialogue.of_eval_eq_error (ctx.every_dialogue text) h with hown | ⟨j, g, hj, hg, hwithin⟩
  · exact hown.elim
  · cases g with
    | cyclic names' => exact ⟨j, hj, by rw [hg, hwithin]; rfl⟩
    | _ => simp [Failure.within] at hwithin

/-- Blocks with these names, each met in a pass over the one before it and the last being the first
again. -/
def Closes (ctx : Context) (blocks : List ctx.store.Id) (names : List Text) : Prop :=
  blocks.map (fun b => (ctx.store.get b).name?) = names.map some ∧ 2 ≤ blocks.length ∧
    blocks.head? = blocks.getLast? ∧ blocks.IsChain ctx.Meets

theorem closes_of_cycle? (hstore : ctx.store.ColonFree) (hfound : ∀ b ∈ ids ++ [i], ctx.Found b)
    (hchain : (ids ++ [i]).IsChain ctx.Meets)
    (h : cycle? (ids.map ctx.frame) (ctx.frame i) = some names) :
    ∃ blocks, ctx.Closes blocks names := by
  obtain ⟨before, f, rest, hstack, hkey, rfl⟩ := cycle?_eq_some h
  obtain ⟨earlier, later, rfl, -, hlater⟩ := List.map_eq_append_iff.1 hstack
  obtain ⟨b, blocks, rfl, rfl, rfl⟩ := List.map_eq_cons_iff.1 hlater
  have hb : b = i := (hfound b (by simp)).eq_of_key hstore (hfound i (by simp)) hkey
  refine ⟨b :: blocks ++ [i], ?_, by simp, ?_, hchain.suffix ⟨earlier, by simp⟩⟩
  case refine_2 =>
    rw [List.getLast?_concat, hb]
    rfl
  have hname : ∀ k ∈ b :: blocks ++ [i], (ctx.store.get k).name? = some (ctx.frame k).name := by
    intro k hk
    exact (hfound k (by simp at hk ⊢; tauto)).name?_eq
  rw [List.map_congr_left hname]
  simp

theorem exists_closes (hstore : ctx.store.ColonFree) (hfound : ∀ b ∈ ids ++ [i], ctx.Found b)
    (hchain : (ids ++ [i]).IsChain ctx.Meets)
    (h : ctx.anew (ids.map ctx.frame) i = .error (.cyclic names)) :
    ∃ blocks, ctx.Closes blocks names := by
  -- Either block `i` closes the cycle, or the failure is that of a block that it asks for.
  induction hstack : ids.map ctx.frame using ctx.stack_induction generalizing ids i with
  | step stack ih =>
    subst hstack
    rw [anew_eq] at h
    split at h
    next names' hcycle =>
      obtain rfl : names' = names := by simpa using h
      exact closes_of_cycle? hstore hfound hchain hcycle
    next hcycle =>
      split at h
      next f hraw => exact absurd (hraw.trans h) (rawText_ne_cyclic i)
      next raw hraw =>
        obtain ⟨j, hj, hcyclic⟩ := exists_asks_of_cyclic h
        have hmeets : ctx.Meets i j := meets_of_asks (.first hraw) (by omega) hj
        have hcyclic : ctx.anew ((ids ++ [i]).map ctx.frame) j = .error (.cyclic names) := by
          simpa using hcyclic
        refine ih i hcycle ?_ ?_ hcyclic (by simp)
        · intro b hb
          rcases List.mem_append.1 hb with hb | hb
          · exact hfound b hb
          · rw [List.mem_singleton.1 hb]
            exact Dialogue.of_asks (ctx.every_dialogue raw) hj
        · refine hchain.append (.singleton j) ?_
          intro x hx y hy
          simp_all

/-- A text that can be expanded reaches no cycle, and a cyclic failure names one. -/
theorem cycle_detection (ctx : Context) (before : List Call) (text : Text) :
    (∀ out, (ctx.resolve (ctx.memoAfter [] before) text).1 = .ok out →
      ∀ a b, ctx.Shows text a → ReflTransGen ctx.Mentions a b → ¬ TransGen ctx.Mentions b b) ∧
    (ctx.store.ColonFree → ∀ names,
      (ctx.resolve (ctx.memoAfter [] before) text).1 = .error (.cyclic names) →
        ∃ blocks, ctx.Closes blocks names) := by
  have hmemo : ctx.Truthful (ctx.start (ctx.memoAfter [] before)) := Truthful.start.memoAfter before
  constructor
  · intro out hout a b ha hab
    obtain ⟨text', hsettles⟩ := settles_of_resolve hmemo hout ha
    exact not_transGen_of_settles hsettles hab
  · intro hstore names h
    rw [fst_resolve hstore hmemo] at h
    obtain ⟨j, hj, hcyclic⟩ := exists_asks_of_cyclic h
    have hchain : ([] ++ [j]).IsChain ctx.Meets := .singleton j
    refine exists_closes hstore ?_ hchain hcyclic
    intro b hb
    rw [List.mem_singleton.1 hb]
    exact Dialogue.of_asks (ctx.every_dialogue text) hj

theorem cycle_detection_nested :
    (nested.resolve [] (placeholder "a")).1 =
        .ok "// Source: d.md\n// Anchor: a\nx // Source: d.md\n// Anchor: b\n1" ∧
      nested.Shows (placeholder "a") (0 : Fin 3) ∧
      ¬ TransGen nested.Mentions (0 : Fin 3) (0 : Fin 3) ∧
      nested.store.ColonFree ∧
      (nested.resolve [] (placeholder "c")).1 = .error (.cyclic ["c", "c"]) ∧
      ∃ blocks, nested.Closes blocks ["c", "c"] := by
  have hout : (nested.resolve [] (placeholder "a")).1 =
      .ok "// Source: d.md\n// Anchor: a\nx // Source: d.md\n// Anchor: b\n1" := by
    decide +kernel
  have hshows : nested.Shows (placeholder "a") (0 : Fin 3) := by
    unfold Shows
    decide +kernel
  have hcyclic : (nested.resolve [] (placeholder "c")).1 = .error (.cyclic ["c", "c"]) := by
    decide +kernel
  exact ⟨hout, hshows, (cycle_detection nested [] _).1 _ hout _ _ hshows .refl, by decide, hcyclic,
    (cycle_detection nested [] _).2 (by decide) _ hcyclic⟩

end Context

end Tangle.Expansion
