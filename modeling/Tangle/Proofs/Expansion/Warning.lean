import Tangle.Proofs.Expansion.Memo
import Tangle.Proofs.Expansion.Remainder

namespace Tangle.Expansion

open Text

namespace Dialogue

variable {s : Store} {α β σ ε : Type}

def Tells (name : Text) : Dialogue s α → Prop
  | done _ => False
  | fail _ => True
  | ask _ next => ∀ text, (next text).Tells name
  | tell name' _ next => name' = name ∨ next.Tells name

variable {name : Text} {p : Dialogue s α} {k : α → Dialogue s β}

theorem Tells.bind (hp : p.Tells name) : (p.bind k).Tells name := by
  induction p with
  | done a => exact hp.elim
  | fail f => trivial
  | ask i next ih => exact fun text => ih text (hp text)
  | tell name' line next ih => exact hp.imp id ih

theorem tells_bind (hk : ∀ a, (k a).Tells name) : (p.bind k).Tells name := by
  induction p with
  | done a => exact hk a
  | fail f => trivial
  | ask i next ih => exact ih
  | tell name' line next ih => exact .inr ih

variable {r : Respondent s σ ε}

theorem Tells.of_run {H : σ → Prop} (hcontent : ∀ i st, H st → H (r.content i st).2)
    (hhear : ∀ name line st, H st → H (r.hear name line st))
    (hname : ∀ line st, H (r.hear name line st)) {a : α} {st st' : σ} (hp : p.Tells name)
    (h : p.run r st = (.ok a, st')) : H st' := by
  induction p generalizing st with
  | done a => exact hp.elim
  | fail f => simp [run] at h
  | ask i next ih =>
    simp only [run] at h
    split at h
    next => simp at h
    next text st₁ _ => exact ih text (hp text) h
  | tell name' line next ih =>
    cases hp with
    | inl heq =>
      subst heq
      have hnext := run_along (r := r) (R := fun st st' => H st → H st') (fun _ => id)
        (fun _ _ _ h h' => h' ∘ h) hcontent hhear next _ (hname line st)
      rwa [show next.run r (r.hear name' line st) = _ from h] at hnext
    | inr hp => exact ih hp h

theorem Reveals.of_run {H : σ → Text → Prop} {D : Text → Text → Prop} {Q : Text → α → Prop}
    (hcontent : ∀ i st text st', r.content i st = (.ok text, st') →
      ∀ name, H st' name → H st name ∨ D name text)
    (hhear : ∀ name line st name', H (r.hear name line st) name' → H st name' ∨ name' = name)
    {a : α} {st st' : σ} (hp : p.Reveals D Q) (h : p.run r st = (.ok a, st')) (hname : H st' name) :
    H st name ∨ Q name a := by
  induction p generalizing st with
  | done b =>
    obtain ⟨-, rfl⟩ := Prod.mk.inj h
    exact .inl hname
  | fail f => simp [run] at h
  | ask i next ih =>
    simp only [run] at h
    split at h
    next => simp at h
    next text st₁ hi =>
      rcases ih text (hp text).1 h with hname | hname
      · exact (hcontent i st text st₁ hi name hname).imp id
          fun hD => ((hp text).2 name hD).of_run h
      · exact .inr hname
  | tell name' line next ih =>
    rcases ih hp.1 h with hname | hname
    · rcases hhear name' line st name hname with hname | rfl
      · exact .inl hname
      · exact .inr (hp.2.of_run h)
    · exact .inr hname

end Dialogue

def warning (name : Text) (line : Nat) : Log.Entry :=
  ⟨.warn, "Unresolved placeholder", [("name", .text name), ("line", .number line)]⟩

namespace Session

variable {store : Store}

def warnings (s : Session store) : List Log.Entry :=
  s.log.filter (·.message = ofString "Unresolved placeholder")

/-- From `s` to `s'`, the names in `more` were warned about, each for the first time. -/
structure Warns (s s' : Session store) (more : List (Text × Nat)) : Prop where
  warned_eq : s'.warned = (more.map Prod.fst).reverse ++ s.warned
  warnings_eq : s'.warnings = s.warnings ++ more.map fun w => warning w.1 w.2
  nodup : s.warned.Nodup → s'.warned.Nodup

def Precedes (s s' : Session store) : Prop := ∃ more, s.Warns s' more

theorem Precedes.refl (s : Session store) : s.Precedes s :=
  ⟨[], rfl, (List.append_nil _).symm, id⟩

theorem Precedes.trans {s s₁ s₂ : Session store} (h : s.Precedes s₁) (h₁ : s₁.Precedes s₂) :
    s.Precedes s₂ := by
  obtain ⟨more, h⟩ := h
  obtain ⟨more₁, h₁⟩ := h₁
  refine ⟨more ++ more₁, ?_, ?_, h₁.nodup ∘ h.nodup⟩
  · simp [h₁.warned_eq, h.warned_eq]
  · simp [h₁.warnings_eq, h.warnings_eq]

theorem Precedes.subset {s s' : Session store} (h : s.Precedes s') : s.warned ⊆ s'.warned := by
  obtain ⟨more, h⟩ := h
  rw [h.warned_eq]
  exact List.subset_append_right ..

theorem precedes_note (s : Session store) (level : Log.Level) {message : Text}
    (h : message ≠ ofString "Unresolved placeholder") (fields : List (Text × Log.Value)) :
    s.Precedes (s.note level message fields) :=
  ⟨[], rfl, by simp [warnings, note, h], id⟩

end Session

namespace Context

variable {ctx : Context} {content : ctx.Content} {name : Text}

theorem precedes_raw (b : Block) (s : Session ctx.store) : s.Precedes (ctx.raw b s).2 := by
  unfold raw
  split
  next =>
    split
    next => exact .refl s
    next =>
      split
      next => exact s.precedes_note .warn (by decide) _
      next => exact .refl s
  next => exact .refl s

theorem precedes_unresolved (name : Text) (line : Nat) (s : Session ctx.store) :
    s.Precedes (ctx.unresolved name line s).2 := by
  unfold unresolved
  split
  next => exact .refl s
  next =>
    split
    next => exact .refl s
    next hnew =>
      refine ⟨[(name, line)], rfl, by simp [Session.warnings, Session.note, warning], ?_⟩
      exact List.nodup_cons.2 ∘ .intro (by simpa using hnew)
  next => exact .refl s

theorem precedes_run {α : Type} (hcontent : ∀ i s, Session.Precedes s (content i s).2)
    (p : Dialogue ctx.store α) (s : Session ctx.store) :
    s.Precedes (p.run (ctx.respondent content) s).2 :=
  Dialogue.run_along Session.Precedes.refl (fun _ _ _ => .trans) hcontent precedes_unresolved p s

theorem precedes_workOut (hcontent : ∀ i s, Session.Precedes s (content i s).2) (i : ctx.store.Id)
    (s : Session ctx.store) : s.Precedes (ctx.workOut content i s).2 := by
  have hraw := precedes_raw (ctx.store.get i) s
  rw [workOut]
  split
  next heq =>
    rw [heq] at hraw
    exact hraw
  next raw s₁ heq =>
    rw [heq] at hraw
    have hrun := precedes_run hcontent (ctx.dialogue raw.dropFinalLf) s₁
    split
    next heq =>
      rw [heq] at hrun
      exact hraw.trans hrun
    next text s₂ heq =>
      rw [heq] at hrun
      exact (hraw.trans hrun).trans ⟨[], rfl, (List.append_nil _).symm, id⟩

theorem precedes_contentOf (stack : List Frame) (i : ctx.store.Id) (s : Session ctx.store) :
    s.Precedes (ctx.contentOf stack i s).2 := by
  induction stack using ctx.stack_induction generalizing i s with
  | step stack ih =>
    rw [contentOf_eq]
    split
    next => exact .refl s
    next h =>
      split
      next => exact .refl s
      next => exact precedes_workOut (ih i h) i s

theorem warned_raw (b : Block) (s : Session ctx.store) : (ctx.raw b s).2.warned = s.warned := by
  unfold raw
  repeat' split
  all_goals rfl

theorem of_mem_warned_unresolved {name' : Text} {line : Nat} {s : Session ctx.store}
    (h : name' ∈ (ctx.unresolved name line s).2.warned) : name' ∈ s.warned ∨ name' = name := by
  unfold unresolved at h
  split at h
  next => exact .inl h
  next =>
    split at h
    next => exact .inl h
    next => exact (List.mem_cons.1 h).symm
  next => exact .inl h

theorem mem_warned_unresolved (hpolicy : ctx.options.unresolved = .warn) (line : Nat)
    (s : Session ctx.store) : name ∈ (ctx.unresolved name line s).2.warned := by
  simp only [unresolved, hpolicy]
  split
  next h => simpa using h
  next => exact List.mem_cons_self ..

theorem misses_of_run
    (hcontent : ∀ i s text s', content i s = (.ok text, s') →
      ∀ name ∈ s'.warned, name ∈ s.warned ∨ ctx.Misses name text)
    {text out : Text} {s s' : Session ctx.store}
    (h : (ctx.dialogue text).run (ctx.respondent content) s = (.ok out, s'))
    (hname : name ∈ s'.warned) : name ∈ s.warned ∨ ctx.Misses name out :=
  (reveals_passesDialogue _ text).of_run (H := fun s name => name ∈ s.warned) hcontent
    (fun _ _ _ _ => of_mem_warned_unresolved) h hname

theorem misses_of_contentOf {stack : List Frame} {i : ctx.store.Id} {s s' : Session ctx.store}
    {text : Text} (h : ctx.contentOf stack i s = (.ok text, s')) (hname : name ∈ s'.warned) :
    name ∈ s.warned ∨ ctx.Misses name text := by
  induction stack using ctx.stack_induction generalizing i s text s' name with
  | step stack ih =>
    obtain ⟨hcycle, ⟨-, rfl⟩ | ⟨-, hwork⟩⟩ := contentOf_eq_ok.1 h
    · exact .inl hname
    · obtain ⟨raw, s₁, s₂, hraw, hrun, rfl⟩ := workOut_eq_ok.1 hwork
      have hwarned := warned_raw (ctx.store.get i) s
      rw [hraw] at hwarned
      rw [← hwarned]
      exact misses_of_run (fun j s text s' hj name => ih i hcycle hj) hrun hname

theorem tells_segmentsDialogue {run : Text} (hrun : ctx.find? (tokenName run) = none)
    {parts : List Segment} (h : .token run ∈ parts) (indent : Text) (line : Nat) :
    (ctx.segmentsDialogue indent line parts).Tells (tokenName run) := by
  induction parts with
  | nil => simp at h
  | cons segment rest ih =>
    cases h with
    | head =>
      apply Dialogue.Tells.bind
      simp only [segmentDialogue, hrun]
      split
      next => trivial
      next => exact .inl rfl
    | tail _ h =>
      apply Dialogue.tells_bind
      intro r
      exact (ih h).bind

theorem tells_linesDialogue {text : Text} {lines : List Text} (hname : name ∈ names text)
    (hfind : ctx.find? name = none) (h : text ∈ lines) (line : Nat) :
    (ctx.linesDialogue line lines).Tells name := by
  induction lines generalizing line with
  | nil => simp at h
  | cons first rest ih =>
    cases h with
    | head =>
      obtain ⟨run, hmem, rfl⟩ := mem_names.1 hname
      exact (tells_segmentsDialogue hfind hmem _ line).bind
    | tail _ h =>
      apply Dialogue.tells_bind
      intro r
      exact (ih h (line + 1)).bind

theorem mem_warned_of_passesDialogue (hpolicy : ctx.options.unresolved = .warn)
    (hcontent : ∀ i s, Session.Precedes s (content i s).2) {passes : Nat} {text out line : Text}
    {s s' : Session ctx.store}
    (h : (ctx.passesDialogue passes text).run (ctx.respondent content) s = (.ok out, s'))
    (hline : line ∈ split lf out) (hname : name ∈ names line) : name ∈ s'.warned := by
  induction passes generalizing text s with
  | zero => simp [passesDialogue, Dialogue.run] at h
  | succ passes ih =>
    obtain ⟨⟨lines, n⟩, s₁, hlines, hrest⟩ := Dialogue.run_bind_eq_ok.1 h
    cases n with
    | zero =>
      obtain ⟨rfl, hleaves⟩ := (ctx.linesDialogue_unchanged 1 (split lf text)).of_run hlines rfl
      simp only [Dialogue.run, Prod.mk.injEq, Except.ok.injEq, join_split] at hrest
      obtain ⟨rfl, rfl⟩ := hrest
      have htells := tells_linesDialogue hname (hleaves line hline name hname).1 hline 1
      exact htells.of_run (H := fun s => name ∈ s.warned) (fun i s h => (hcontent i s).subset h)
        (fun name' line s h => (precedes_unresolved name' line s).subset h)
        (fun line s => mem_warned_unresolved hpolicy line s) hlines
    | succ n => exact ih hrest

/-- Under `warn`, an expansion that succeeds has warned about the names that its outcome still has,
about each of them once, and about nothing else. -/
theorem warnings_match {memo : List (ctx.store.Id × Text)} {text out : Text}
    {s : Session ctx.store} (hpolicy : ctx.options.unresolved = .warn)
    (h : ctx.resolve memo text = (.ok out, s)) :
    ∃ given : List (Text × Nat),
      s.log.filter (·.message = ofString "Unresolved placeholder") =
        given.map (fun w => warning w.1 w.2) ∧
      (given.map Prod.fst).Nodup ∧
      ∀ name, name ∈ given.map Prod.fst ↔ ∃ line ∈ split lf out, name ∈ names line := by
  rw [resolve, expandWith_eq_run] at h
  obtain ⟨given, hgiven⟩ := precedes_run (precedes_contentOf []) (ctx.dialogue text) (ctx.start memo)
  rw [h] at hgiven
  have hwarned : s.warned = (given.map Prod.fst).reverse := by
    rw [hgiven.warned_eq]
    exact List.append_nil _
  refine ⟨given, hgiven.warnings_eq, ?_, fun name => ?_⟩
  · rw [← List.nodup_reverse, ← hwarned]
    exact hgiven.nodup List.nodup_nil
  · rw [← List.mem_reverse, ← hwarned]
    constructor
    · intro hname
      rcases misses_of_run (fun i s text s' hi name => misses_of_contentOf hi) h hname with
        hname | hname
      · cases hname
      · obtain ⟨line, hline, hname⟩ := hname.exists_line
        obtain ⟨run, -, rfl, hmem⟩ := hname.exists_token
        exact ⟨line, hline, mem_names.2 ⟨run, hmem, rfl⟩⟩
    · rintro ⟨line, hline, hname⟩
      exact mem_warned_of_passesDialogue hpolicy (precedes_contentOf []) h hline hname

theorem warnings_match_joining :
    let r := (joining .warn).resolve [(⟨1, by decide⟩, placeholder "y" ++ placeholder "y")]
      (placeholder "b" ++ placeholder "z")
    r.1 = .ok (placeholder "y" ++ placeholder "y" ++ placeholder "z") ∧
      r.2.log = [warning "z" 1, warning "y" 1] ∧
      ∃ given : List (Text × Nat),
        r.2.log.filter (·.message = ofString "Unresolved placeholder") =
          given.map (fun w => warning w.1 w.2) ∧
        (given.map Prod.fst).Nodup ∧
        ∀ name, name ∈ given.map Prod.fst ↔
          ∃ line ∈ split lf (placeholder "y" ++ placeholder "y" ++ placeholder "z"),
            name ∈ names line := by
  intro r
  have hout : r.1 = .ok (placeholder "y" ++ placeholder "y" ++ placeholder "z") := by
    decide +kernel
  have hlog : r.2.log = [warning "z" 1, warning "y" 1] := by
    decide +kernel
  exact ⟨hout, hlog, warnings_match rfl (Prod.ext hout rfl)⟩

end Context

end Tangle.Expansion
