import Tangle.Proofs.Expansion.Memo
import Mathlib.Data.List.Dedup

namespace Tangle.Expansion

open Text

structure Tracked (s : Store) extends Session s where
  stack : List Frame := []
  history : List (List Frame) := [[]]

namespace Tracked

variable {s : Store}

def update (t : Tracked s) (session : Session s) : Tracked s := { t with toSession := session }

def move (t : Tracked s) (stack : List Frame) : Tracked s :=
  { t with stack, history := t.history ++ [stack] }

def push (t : Tracked s) (frame : Frame) : Tracked s := t.move (t.stack ++ [frame])

def pop (t : Tracked s) : Tracked s := t.move t.stack.dropLast

@[simp] theorem stack_update (t : Tracked s) (session : Session s) :
    (t.update session).stack = t.stack := rfl

@[simp] theorem stack_push (t : Tracked s) (frame : Frame) :
    (t.push frame).stack = t.stack ++ [frame] := rfl

@[simp] theorem stack_pop (t : Tracked s) : t.pop.stack = t.stack.dropLast := rfl

end Tracked

def keys (s : Store) : List Text :=
  ((s.blocks.filter fun b => b.kind ∈ Context.candidates).map fun b => (Frame.ofBlock b).key).dedup

structure Orderly (s : Store) (stack : List Frame) : Prop where
  nodup : (stack.map (·.key)).Nodup
  mem_keys : ∀ f ∈ stack, f.key ∈ keys s

theorem Orderly.nil (s : Store) : Orderly s [] := ⟨by simp, by simp⟩

theorem Orderly.length_le {s : Store} {stack : List Frame} (h : Orderly s stack) :
    stack.length ≤ (keys s).length := by
  have hsubset : stack.map (·.key) ⊆ keys s := by
    intro key hkey
    obtain ⟨f, hf, rfl⟩ := List.mem_map.1 hkey
    exact h.mem_keys f hf
  simpa using (List.subperm_of_subset h.nodup hsubset).length_le

namespace Context

variable (ctx : Context)

def tracker (content : ctx.store.Id → Tracked ctx.store →
      Except (Option Failure) Text × Tracked ctx.store) :
    Respondent ctx.store (Tracked ctx.store) (Option Failure) where
  content := content
  hear name line t := t.update (ctx.unresolved name line t.toSession).2
  failure := some
  within := Option.map Failure.within

/-- The text of a block when at most `depth` blocks may be open at once; the failure `none` says that
this was not enough. -/
def contentWithin : (depth : Nat) → ctx.store.Id → Tracked ctx.store →
    Except (Option Failure) Text × Tracked ctx.store
  | 0, _, t => (.error none, t)
  | depth + 1, i, t =>
    match cycle? t.stack (ctx.frame i) with
    | some names => (.error (some (.cyclic names)), t)
    | none =>
      match t.memo.lookup i with
      | some text => (.ok text, t)
      | none =>
        match ctx.raw (ctx.store.get i) t.toSession with
        | (.error f, s) => (.error (some f), t.update s)
        | (.ok raw, s) =>
          match (ctx.dialogue raw.dropFinalLf).run (ctx.tracker (contentWithin depth))
            ((t.update s).push (ctx.frame i)) with
          | (.error e, t) => (.error e, t.pop)
          | (.ok text, t) => (.ok text, t.pop.update (t.remember i text))

def resolveWithin (depth : Nat) (memo : List (ctx.store.Id × Text)) (text : Text) :
    Except (Option Failure) Text × Tracked ctx.store :=
  (ctx.dialogue text).run (ctx.tracker (ctx.contentWithin depth)) { ctx.start memo with }

variable {ctx}

theorem stack_run {α : Type}
    {content : ctx.store.Id → Tracked ctx.store → Except (Option Failure) Text × Tracked ctx.store}
    (hcontent : ∀ i t, (content i t).2.stack = t.stack) (p : Dialogue ctx.store α)
    (t : Tracked ctx.store) : (p.run (ctx.tracker content) t).2.stack = t.stack := by
  induction p generalizing t with
  | done a => rfl
  | fail f => rfl
  | ask i next ih =>
    have hstack := hcontent i t
    simp only [Dialogue.run, tracker]
    rcases hc : content i t with ⟨e | text, t'⟩
    · simpa [hc] using hstack
    · rw [hc] at hstack
      exact (ih text t').trans hstack
  | tell name line next ih => exact ih _

theorem stack_contentWithin (depth : Nat) (i : ctx.store.Id) (t : Tracked ctx.store) :
    (ctx.contentWithin depth i t).2.stack = t.stack := by
  induction depth generalizing i t with
  | zero => rfl
  | succ depth ih =>
    simp only [contentWithin]
    split
    next => rfl
    next =>
      split
      next => rfl
      next =>
        split
        next => rfl
        next raw s hraw =>
          have hstack := stack_run ih (ctx.dialogue raw.dropFinalLf)
            ((t.update s).push (ctx.frame i))
          split
          next hrun =>
            simp only [hrun, Tracked.stack_push, Tracked.stack_update] at hstack
            simp [hstack]
          next hrun =>
            simp only [hrun, Tracked.stack_push, Tracked.stack_update] at hstack
            simp [hstack]

theorem Found.key_mem_keys {i : ctx.store.Id} (h : ctx.Found i) :
    (ctx.frame i).key ∈ keys ctx.store := by
  refine List.mem_dedup.2 (List.mem_map.2 ⟨ctx.store.get i, ?_, rfl⟩)
  refine List.mem_filter.2 ⟨List.get_mem .., ?_⟩
  simpa [candidates, or_comm] using h.kind_eq

theorem Found.orderly_append {stack : List Frame} {i : ctx.store.Id} (hi : ctx.Found i)
    (h : Orderly ctx.store stack) (hcycle : cycle? stack (ctx.frame i) = none) :
    Orderly ctx.store (stack ++ [ctx.frame i]) where
  nodup := by
    rw [List.map_append, List.nodup_append]
    refine ⟨h.nodup, by simp, ?_⟩
    intro key hkey key' hkey'
    obtain ⟨f, hf, rfl⟩ := List.mem_map.1 hkey
    obtain rfl : key' = (ctx.frame i).key := by simpa using hkey'
    exact cycle?_eq_none_iff.1 hcycle f hf
  mem_keys := by
    intro f hf
    rcases List.mem_append.1 hf with hf | hf
    · exact h.mem_keys f hf
    · rw [List.mem_singleton.1 hf]
      exact hi.key_mem_keys

structure Tracks (stack : List Frame) (t : Tracked ctx.store) (s : Session ctx.store) : Prop where
  session : t.toSession = s
  stack : t.stack = stack
  history : ∀ stack ∈ t.history, Orderly ctx.store stack

namespace Tracks

variable {stack : List Frame} {t : Tracked ctx.store} {s : Session ctx.store}

theorem update (h : Tracks stack t s) (s' : Session ctx.store) : Tracks stack (t.update s') s' :=
  ⟨rfl, h.stack, h.history⟩

theorem move (h : Tracks stack t s) {stack' : List Frame} (horder : Orderly ctx.store stack') :
    Tracks stack' (t.move stack') s := by
  refine ⟨h.session, rfl, fun st hst => ?_⟩
  rcases List.mem_append.1 hst with hst | hst
  · exact h.history st hst
  · rw [List.mem_singleton.1 hst]
    exact horder

theorem push (h : Tracks stack t s) {frame : Frame}
    (horder : Orderly ctx.store (stack ++ [frame])) :
    Tracks (stack ++ [frame]) (t.push frame) s := by
  rw [Tracked.push, h.stack]
  exact h.move horder

theorem pop {frame : Frame} (h : Tracks (stack ++ [frame]) t s) (horder : Orderly ctx.store stack) :
    Tracks stack t.pop s := by
  rw [Tracked.pop, h.stack, List.dropLast_concat]
  exact h.move horder

theorem contentWithin {depth : Nat} {i : ctx.store.Id} (hi : ctx.Found i)
    (horder : Orderly ctx.store stack) (hdepth : (keys ctx.store).length < depth + stack.length)
    (h : Tracks stack t s) :
    (ctx.contentWithin depth i t).1 = (ctx.contentOf stack i s).1.mapError some ∧
      Tracks stack (ctx.contentWithin depth i t).2 (ctx.contentOf stack i s).2 := by
  induction depth generalizing stack i t s with
  | zero =>
    -- The stack would have more keys than there are.
    exact absurd horder.length_le (by omega)
  | succ depth ih =>
    rw [contentOf_eq, workOut, Context.contentWithin, h.stack, h.session]
    cases hcycle : cycle? stack (ctx.frame i) with
    | some names => exact ⟨rfl, h⟩
    | none =>
      dsimp only
      cases s.memo.lookup i with
      | some text => exact ⟨rfl, h⟩
      | none =>
        dsimp only
        rcases ctx.raw (ctx.store.get i) s with ⟨f | raw, s₁⟩
        · exact ⟨rfl, h.update s₁⟩
        · have horder' := hi.orderly_append horder hcycle
          obtain ⟨hresult, htracks⟩ := Dialogue.run_related
            (r := ctx.tracker (ctx.contentWithin depth))
            (q := ctx.respondent (ctx.contentOf (stack ++ [ctx.frame i]))) (g := some)
            (fun j t s hj h => ih hj horder' (by simp; omega) h)
            (fun name line t s h => h.session ▸ h.update _) (fun _ => rfl) (fun _ => rfl)
            (ctx.every_dialogue raw.dropFinalLf) ((h.update s₁).push horder')
          dsimp only
          generalize (ctx.dialogue raw.dropFinalLf).run (ctx.tracker _) _ = r at hresult htracks ⊢
          generalize (ctx.dialogue raw.dropFinalLf).run (ctx.respondent _) _ = r' at hresult htracks ⊢
          rcases r with ⟨e | text, t₂⟩ <;> rcases r' with ⟨f | text', s₂⟩
          · exact ⟨hresult, htracks.pop horder⟩
          · simp [Except.mapError] at hresult
          · simp [Except.mapError] at hresult
          · obtain rfl : text = text' := by simpa [Except.mapError] using hresult
            refine ⟨rfl, ?_⟩
            dsimp only at htracks ⊢
            rw [htracks.session]
            exact (htracks.pop horder).update _

end Tracks

/-- A depth above the number of keys is never used up, and the outcome is that of `resolve`. All
along, the stack is orderly, and each block leaves it as it finds it. -/
theorem resolveWithin_eq_resolve (ctx : Context) {depth : Nat}
    (hdepth : (keys ctx.store).length < depth) (memo : List (ctx.store.Id × Text)) (text : Text) :
    (ctx.resolveWithin depth memo text).1 = (ctx.resolve memo text).1.mapError some ∧
      (ctx.resolveWithin depth memo text).2.toSession = (ctx.resolve memo text).2 ∧
      (ctx.resolveWithin depth memo text).2.stack = [] ∧
      (∀ stack ∈ (ctx.resolveWithin depth memo text).2.history,
        Orderly ctx.store stack ∧ stack.length ≤ (keys ctx.store).length) ∧
      ∀ depth i t, (ctx.contentWithin depth i t).2.stack = t.stack := by
  have hstart : Tracks [] ({ ctx.start memo with } : Tracked ctx.store) (ctx.start memo) :=
    ⟨rfl, rfl, fun stack hstack => by rw [List.mem_singleton.1 hstack]; exact .nil _⟩
  obtain ⟨hresult, htracks⟩ := Dialogue.run_related (r := ctx.tracker (ctx.contentWithin depth))
    (q := ctx.respondent (ctx.contentOf [])) (g := some)
    (fun j t s hj h => Tracks.contentWithin hj (.nil _) (by simpa using hdepth) h)
    (fun name line t s h => h.session ▸ h.update _) (fun _ => rfl) (fun _ => rfl)
    (ctx.every_dialogue text) hstart
  rw [resolve, expandWith_eq_run]
  refine ⟨hresult, htracks.session, htracks.stack, fun stack hstack => ?_, stack_contentWithin⟩
  have horder := htracks.history stack hstack
  exact ⟨horder, horder.length_le⟩

theorem resolveWithin_nested :
    (keys nested.store).length < 4 ∧
      (nested.resolveWithin 4 [] (placeholder "c")).1 =
        (nested.resolve [] (placeholder "c")).1.mapError some :=
  ⟨by decide, (resolveWithin_eq_resolve nested (by decide) [] _).1⟩

end Context

end Tangle.Expansion
