import Tangle.Proofs.Expansion.Dialogue
import Tangle.Proofs.Expansion.Token

namespace Tangle.Expansion

open Text

namespace Dialogue

variable {s : Store} {α β : Type}

/-- Once the dialogue tells of a name or is given a text in `D`, what comes out is in `Q`. -/
def Exposes (D : Text → Prop) (Q : α → Prop) : Dialogue s α → Prop
  | done _ => True
  | fail _ => True
  | ask _ next => ∀ text, (next text).Exposes D Q ∧ (D text → (next text).Always Q)
  | tell _ _ next => next.Always Q

def Reveals (D : Text → Text → Prop) (Q : Text → α → Prop) : Dialogue s α → Prop
  | done _ => True
  | fail _ => True
  | ask _ next => ∀ text, (next text).Reveals D Q ∧ ∀ name, D name text → (next text).Always (Q name)
  | tell name _ next => next.Reveals D Q ∧ next.Always (Q name)

theorem Reveals.bind {D : Text → Text → Prop} {Q : Text → α → Prop} {Q' : Text → β → Prop}
    {p : Dialogue s α} {k : α → Dialogue s β} (hp : p.Reveals D Q) (hk : ∀ a, (k a).Reveals D Q')
    (hQ : ∀ name a, Q name a → (k a).Always (Q' name)) : (p.bind k).Reveals D Q' := by
  induction p with
  | done a => exact hk a
  | fail f => trivial
  | ask i next ih =>
    intro text
    exact ⟨ih text (hp text).1, fun name hD => ((hp text).2 name hD).bind (hQ name)⟩
  | tell name line next ih => exact ⟨ih hp.1, hp.2.bind (hQ name)⟩

theorem Reveals.exposes {D : Text → Text → Prop} {Q : Text → α → Prop} {p : Dialogue s α}
    (hp : p.Reveals D Q) : p.Exposes (fun text => ∃ name, D name text) fun a => ∃ name, Q name a := by
  induction p with
  | done a => trivial
  | fail f => trivial
  | ask i next ih =>
    intro text
    refine ⟨ih text (hp text).1, ?_⟩
    rintro ⟨name, hD⟩
    exact ((hp text).2 name hD).imp fun a ha => ⟨name, ha⟩
  | tell name line next => exact hp.2.imp fun a ha => ⟨name, ha⟩

def Yields (a : α) : Dialogue s α → Prop
  | done b => b = a
  | fail _ => False
  | ask _ _ => False
  | tell _ _ next => next.Yields a

theorem Yields.bind {p : Dialogue s α} {a : α} {k : α → Dialogue s β} {b : β} (hp : p.Yields a)
    (hk : (k a).Yields b) : (p.bind k).Yields b := by
  induction p with
  | done a' =>
    cases hp
    exact hk
  | fail f => cases hp
  | ask i next => cases hp
  | tell name line next ih => exact ih hp

theorem Yields.fst_run {σ ε : Type} {p : Dialogue s α} {a : α} (hp : p.Yields a)
    (r : Respondent s σ ε) (st : σ) : (p.run r st).1 = .ok a := by
  induction p generalizing st with
  | done a' =>
    cases hp
    rfl
  | fail f => cases hp
  | ask i next => cases hp
  | tell name line next ih => exact ih hp _

theorem Yields.eval {p : Dialogue s α} {a : α} (hp : p.Yields a)
    (c : s.Id → Except Failure Text) : p.eval c = .ok a := by
  induction p with
  | done a' =>
    cases hp
    rfl
  | fail f => cases hp
  | ask i next => cases hp
  | tell name line next ih => exact ih hp

end Dialogue

namespace Context

variable (ctx : Context)

structure Loose (run : Text) : Prop where
  isRun : IsRun run
  lf_notMem : lf ∉ run
  find?_eq_none : ctx.find? (tokenName run) = none

def Dangles (text : Text) : Prop :=
  ∃ run, ctx.Loose run ∧ (Segment.token run).text <:+: text

def Misses (name text : Text) : Prop :=
  ∃ run, ctx.Loose run ∧ tokenName run = name ∧ (Segment.token run).text <:+: text

variable {ctx} {name : Text}

theorem dangles_iff {text : Text} : ctx.Dangles text ↔ ∃ name, ctx.Misses name text := by
  constructor
  · rintro ⟨run, hrun, htext⟩
    exact ⟨tokenName run, run, hrun, rfl, htext⟩
  · rintro ⟨_, run, hrun, -, htext⟩
    exact ⟨run, hrun, htext⟩

theorem Misses.of_infix {t u : Text} (h : ctx.Misses name t) (htu : t <:+: u) :
    ctx.Misses name u := by
  cases h with
  | intro run h => exact ⟨run, h.1, h.2.1, h.2.2.trans htu⟩

theorem lf_notMem_token {run : Text} (h : lf ∉ run) : lf ∉ (Segment.token run).text := by
  simp [Segment.text, opening, closing, lf, h]

theorem Misses.hang {t : Text} (h : ctx.Misses name t) (indent : Text) :
    ctx.Misses name (hang indent t) := by
  obtain ⟨run, hrun, hname, before, after, rfl⟩ := h
  refine ⟨run, hrun, hname, Text.hang indent before, Text.hang indent after, ?_⟩
  rw [hang_append, hang_append, hang_eq_self indent (lf_notMem_token hrun.lf_notMem)]

theorem lf_notMem_of_mem_segments {line run : Text} (hline : lf ∉ line)
    (h : .token run ∈ segments line) : lf ∉ run := by
  intro hlf
  apply hline
  apply (token_mem_segments_iff.1 h).2.subset
  simp [Segment.text, hlf]

theorem Misses.exists_token {line : Text} (h : ctx.Misses name line) :
    ∃ run, ctx.Loose run ∧ tokenName run = name ∧ .token run ∈ segments line := by
  cases h with
  | intro run h => exact ⟨run, h.1, h.2.1, token_mem_segments_iff.2 ⟨h.1.isRun, h.2.2⟩⟩

theorem Misses.exists_line {text : Text} (h : ctx.Misses name text) :
    ∃ line ∈ split lf text, ctx.Misses name line := by
  obtain ⟨run, hrun, hname, hinfix⟩ := h
  obtain ⟨line, hline, hinfix⟩ := exists_infix_of_infix (lf_notMem_token hrun.lf_notMem) hinfix
  exact ⟨line, hline, run, hrun, hname, hinfix⟩

theorem Misses.join {line : Text} {lines : List Text} (h : ctx.Misses name line)
    (hline : line ∈ lines) : ctx.Misses name (join [lf] lines) :=
  h.of_infix (infix_join [lf] hline)

theorem Dangles.exists_token {line : Text} (h : ctx.Dangles line) :
    ∃ run, ctx.Loose run ∧ .token run ∈ segments line := by
  cases h with
  | intro run h => exact ⟨run, h.1, token_mem_segments_iff.2 ⟨h.1.isRun, h.2⟩⟩

theorem Dangles.exists_line {text : Text} (h : ctx.Dangles text) :
    ∃ line ∈ split lf text, ctx.Dangles line := by
  obtain ⟨name, hname⟩ := dangles_iff.1 h
  obtain ⟨line, hline, hname⟩ := hname.exists_line
  exact ⟨line, hline, dangles_iff.2 ⟨name, hname⟩⟩

theorem always_segmentDialogue {run : Text} (h : ctx.Loose run) (indent : Text) (line : Nat) :
    (ctx.segmentDialogue indent line (.token run)).Always
      fun r => ctx.Misses (tokenName run) r.1 := by
  simp only [segmentDialogue, h.find?_eq_none]
  split
  next => trivial
  next => exact ⟨run, h, rfl, List.infix_rfl⟩

theorem reveals_segmentDialogue (indent : Text) (line : Nat) (segment : Segment)
    (h : ∀ run, segment = .token run → IsRun run ∧ lf ∉ run) :
    (ctx.segmentDialogue indent line segment).Reveals ctx.Misses
      fun name r => ctx.Misses name r.1 := by
  cases segment with
  | byte b => trivial
  | token run =>
    have hrun := h run rfl
    simp only [segmentDialogue]
    split
    next hfind =>
      split
      next => trivial
      next => exact ⟨trivial, run, ⟨hrun.1, hrun.2, hfind⟩, rfl, List.infix_rfl⟩
    next =>
      intro text
      refine ⟨trivial, fun name htext => ?_⟩
      exact (htext.of_infix (List.suffix_append ..).isInfix).hang indent

theorem always_segmentsDialogue {run : Text} (hrun : ctx.Loose run) {parts : List Segment}
    (h : .token run ∈ parts) (indent : Text) (line : Nat) :
    (ctx.segmentsDialogue indent line parts).Always fun r => ctx.Misses (tokenName run) r.1 := by
  induction parts with
  | nil => simp at h
  | cons segment rest ih =>
    cases h with
    | head =>
      apply (always_segmentDialogue hrun indent line).bind
      intro r hr
      apply (Dialogue.always_true _).bind
      intro r' _
      exact hr.of_infix (List.prefix_append ..).isInfix
    | tail _ h =>
      apply (Dialogue.always_true _).bind
      intro r _
      apply (ih h).bind
      intro r' hr'
      exact hr'.of_infix (List.suffix_append ..).isInfix

theorem reveals_segmentsDialogue (indent : Text) (line : Nat) (parts : List Segment)
    (h : ∀ run, .token run ∈ parts → IsRun run ∧ lf ∉ run) :
    (ctx.segmentsDialogue indent line parts).Reveals ctx.Misses
      fun name r => ctx.Misses name r.1 := by
  induction parts with
  | nil => trivial
  | cons segment rest ih =>
    apply (reveals_segmentDialogue indent line segment ?_).bind
    · intro r
      apply (ih fun run hrun => h run (List.mem_cons_of_mem _ hrun)).bind
      · intro r'
        trivial
      · intro name r' hr'
        exact hr'.of_infix (List.suffix_append ..).isInfix
    · intro name r hr
      apply (Dialogue.always_true _).bind
      intro r' _
      exact hr.of_infix (List.prefix_append ..).isInfix
    · rintro run rfl
      exact h run (List.mem_cons_self ..)

theorem always_linesDialogue {text : Text} (htext : ctx.Misses name text) {lines : List Text}
    (h : text ∈ lines) (line : Nat) :
    (ctx.linesDialogue line lines).Always fun r => ∃ text ∈ r.1, ctx.Misses name text := by
  induction lines generalizing line with
  | nil => simp at h
  | cons first rest ih =>
    cases h with
    | head =>
      obtain ⟨run, hrun, rfl, hmem⟩ := htext.exists_token
      apply (always_segmentsDialogue hrun hmem _ line).bind
      intro r hr
      apply (Dialogue.always_true _).bind
      intro r' _
      exact ⟨r.1, List.mem_cons_self .., hr⟩
    | tail _ h =>
      apply (Dialogue.always_true _).bind
      intro r _
      apply (ih h (line + 1)).bind
      rintro r' ⟨text, hmem, htext⟩
      exact ⟨text, List.mem_cons_of_mem _ hmem, htext⟩

theorem reveals_linesDialogue (line : Nat) {lines : List Text} (h : ∀ text ∈ lines, lf ∉ text) :
    (ctx.linesDialogue line lines).Reveals ctx.Misses
      fun name r => ∃ text ∈ r.1, ctx.Misses name text := by
  induction lines generalizing line with
  | nil => trivial
  | cons first rest ih =>
    apply (reveals_segmentsDialogue _ line (segments first) ?_).bind
    · intro r
      apply (ih (line + 1) fun text htext => h text (List.mem_cons_of_mem _ htext)).bind
      · intro r'
        trivial
      · rintro name r' ⟨text, hmem, htext⟩
        exact ⟨text, List.mem_cons_of_mem _ hmem, htext⟩
    · intro name r hr
      apply (Dialogue.always_true _).bind
      intro r' _
      exact ⟨r.1, List.mem_cons_self .., hr⟩
    · intro run hrun
      exact ⟨isRun_of_mem_segments hrun,
        lf_notMem_of_mem_segments (h first (List.mem_cons_self ..)) hrun⟩

theorem always_passesDialogue {text : Text} (h : ctx.Misses name text) (passes : Nat) :
    (ctx.passesDialogue passes text).Always (ctx.Misses name) := by
  induction passes generalizing text with
  | zero => trivial
  | succ passes ih =>
    obtain ⟨line, hmem, hline⟩ := h.exists_line
    apply (always_linesDialogue hline hmem 1).bind
    rintro ⟨lines, n⟩ ⟨line, hmem, hline⟩
    cases n with
    | zero => exact hline.join hmem
    | succ n => exact ih (hline.join hmem)

theorem reveals_passesDialogue (passes : Nat) (text : Text) :
    (ctx.passesDialogue passes text).Reveals ctx.Misses ctx.Misses := by
  induction passes generalizing text with
  | zero => trivial
  | succ passes ih =>
    apply (reveals_linesDialogue 1 fun line hline => notMem_of_mem_split hline).bind
    · rintro ⟨lines, n⟩
      cases n with
      | zero => trivial
      | succ n => exact ih _
    · rintro name ⟨lines, n⟩ ⟨line, hmem, hline⟩
      cases n with
      | zero => exact hline.join hmem
      | succ n => exact always_passesDialogue (hline.join hmem) passes

theorem exposes_passesDialogue (passes : Nat) (text : Text) :
    (ctx.passesDialogue passes text).Exposes ctx.Dangles ctx.Dangles := by
  have hdangles : ctx.Dangles = fun text => ∃ name, ctx.Misses name text := by
    funext text
    exact propext dangles_iff
  rw [hdangles]
  exact (reveals_passesDialogue passes text).exposes

variable (ctx)

def Leaves (name : Text) : Prop :=
  ctx.find? name = none ∧ ctx.options.unresolved ≠ .error

theorem segmentDialogue_unchanged (indent : Text) (line : Nat) (segment : Segment) :
    (ctx.segmentDialogue indent line segment).Always fun r => r.2 = 0 →
      r.1 = segment.text ∧ ∀ run, segment = .token run → ctx.Leaves (tokenName run) := by
  cases segment with
  | byte b => simp [segmentDialogue, Dialogue.Always, Segment.text]
  | token run =>
    simp only [segmentDialogue]
    split
    next hfind =>
      split
      next => trivial
      next hpolicy =>
        intro _
        refine ⟨rfl, ?_⟩
        rintro _ ⟨rfl⟩
        exact ⟨hfind, hpolicy⟩
    next => simp [Dialogue.Always]

theorem segmentsDialogue_unchanged (indent : Text) (line : Nat) (parts : List Segment) :
    (ctx.segmentsDialogue indent line parts).Always fun r => r.2 = 0 →
      r.1 = parts.flatMap Segment.text ∧
        ∀ run, .token run ∈ parts → ctx.Leaves (tokenName run) := by
  induction parts with
  | nil => simp [segmentsDialogue, Dialogue.Always]
  | cons segment rest ih =>
    apply (ctx.segmentDialogue_unchanged indent line segment).bind
    intro r hr
    apply ih.bind
    intro r' hr' hzero
    obtain ⟨hr₂, hr₂'⟩ : r.2 = 0 ∧ r'.2 = 0 := Nat.add_eq_zero_iff.1 hzero
    obtain ⟨htext, hsegment⟩ := hr hr₂
    obtain ⟨hmore, hrest⟩ := hr' hr₂'
    refine ⟨by simp [htext, hmore], ?_⟩
    intro run hrun
    cases List.mem_cons.1 hrun with
    | inl h => exact hsegment run h.symm
    | inr h => exact hrest run h

theorem linesDialogue_unchanged (line : Nat) (lines : List Text) :
    (ctx.linesDialogue line lines).Always fun r => r.2 = 0 →
      r.1 = lines ∧ ∀ text ∈ lines, ∀ name ∈ names text, ctx.Leaves name := by
  induction lines generalizing line with
  | nil => simp [linesDialogue, Dialogue.Always]
  | cons text rest ih =>
    apply (ctx.segmentsDialogue_unchanged (indentation text) line (segments text)).bind
    intro r hr
    apply (ih (line + 1)).bind
    intro r' hr' hzero
    obtain ⟨hr₂, hr₂'⟩ : r.2 = 0 ∧ r'.2 = 0 := Nat.add_eq_zero_iff.1 hzero
    obtain ⟨htext, hruns⟩ := hr hr₂
    obtain ⟨hmore, hrest⟩ := hr' hr₂'
    rw [flatMap_text_segments] at htext
    refine ⟨by simp [htext, hmore], ?_⟩
    intro t ht name hname
    cases List.mem_cons.1 ht with
    | inl h =>
      obtain ⟨run, hmem, rfl⟩ := mem_names.1 hname
      exact hruns run (h ▸ hmem)
    | inr h => exact hrest t h name hname

theorem leaves_of_passesDialogue (passes : Nat) (text : Text) :
    (ctx.passesDialogue passes text).Always fun out =>
      ∀ line ∈ split lf out, ∀ name ∈ names line, ctx.Leaves name := by
  induction passes generalizing text with
  | zero => trivial
  | succ passes ih =>
    apply (ctx.linesDialogue_unchanged 1 (split lf text)).bind
    rintro ⟨lines, n⟩ hr
    cases n with
    | zero =>
      obtain ⟨rfl, hleaves⟩ := hr rfl
      simpa only [Dialogue.Always, join_split] using hleaves
    | succ n => exact ih _

variable {ctx}

theorem leaves_of_resolve {memo : List (ctx.store.Id × Text)} {text out : Text}
    (h : (ctx.resolve memo text).1 = .ok out) :
    ∀ line ∈ split lf out, ∀ name ∈ names line, ctx.Leaves name := by
  rw [resolve, expandWith_eq_run] at h
  exact (ctx.leaves_of_passesDialogue _ text).of_run (Prod.ext h rfl)

theorem yields_segmentDialogue (indent : Text) (line : Nat) {segment : Segment}
    (h : ∀ run, segment = .token run → ctx.Leaves (tokenName run)) :
    (ctx.segmentDialogue indent line segment).Yields (segment.text, 0) := by
  cases segment with
  | byte b => rfl
  | token run =>
    obtain ⟨hfind, hpolicy⟩ := h run rfl
    simp [segmentDialogue, hfind, hpolicy, Dialogue.Yields]

theorem yields_segmentsDialogue (indent : Text) (line : Nat) {parts : List Segment}
    (h : ∀ run, .token run ∈ parts → ctx.Leaves (tokenName run)) :
    (ctx.segmentsDialogue indent line parts).Yields (parts.flatMap Segment.text, 0) := by
  induction parts with
  | nil => rfl
  | cons segment rest ih =>
    apply (yields_segmentDialogue indent line ?_).bind
    · apply (ih fun run hrun => h run (List.mem_cons_of_mem _ hrun)).bind
      rfl
    · rintro run rfl
      exact h run (List.mem_cons_self ..)

theorem yields_linesDialogue (line : Nat) {lines : List Text}
    (h : ∀ text ∈ lines, ∀ name ∈ names text, ctx.Leaves name) :
    (ctx.linesDialogue line lines).Yields (lines, 0) := by
  induction lines generalizing line with
  | nil => rfl
  | cons text rest ih =>
    have hruns : ∀ run, .token run ∈ segments text → ctx.Leaves (tokenName run) := by
      intro run hrun
      exact h text (List.mem_cons_self ..) _ (mem_names.2 ⟨run, hrun, rfl⟩)
    have htext : (ctx.lineDialogue line text).Yields (text, 0) := by
      have hsegments := yields_segmentsDialogue (indentation text) line hruns
      rwa [flatMap_text_segments] at hsegments
    apply htext.bind
    apply (ih (line + 1) fun t ht => h t (List.mem_cons_of_mem _ ht)).bind
    rfl

theorem yields_passesDialogue {text : Text}
    (h : ∀ line ∈ split lf text, ∀ name ∈ names line, ctx.Leaves name) (passes : Nat) :
    (ctx.passesDialogue (passes + 1) text).Yields text := by
  apply (yields_linesDialogue 1 h).bind
  exact join_split lf text

theorem resolve_of_leaves {text : Text}
    (h : ∀ line ∈ split lf text, ∀ name ∈ names line, ctx.Leaves name)
    (memo : List (ctx.store.Id × Text)) : (ctx.resolve memo text).1 = .ok text := by
  rw [resolve, expandWith_eq_run]
  exact (yields_passesDialogue h _).fst_run _ _

/-- What comes out of an expansion has only placeholders that mean no block, and none at all under
`error`, and every later expansion gives it back. Under the other policies any text without a
placeholder that means a block is given back. Whatever is remembered does not matter. -/
theorem resolve_settles (ctx : Context) (memo : List (ctx.store.Id × Text)) (text : Text) :
    (∀ out, (ctx.resolve memo text).1 = .ok out →
      (∀ line ∈ split lf out, ∀ name ∈ names line, ctx.find? name = none) ∧
      (∀ memo', (ctx.resolve memo' out).1 = .ok out) ∧
      (ctx.options.unresolved = .error → ∀ line ∈ split lf out, names line = [])) ∧
    (ctx.options.unresolved ≠ .error →
      (∀ line ∈ split lf text, ∀ name ∈ names line, ctx.find? name = none) →
        (ctx.resolve memo text).1 = .ok text) := by
  constructor
  · intro out h
    have hleaves := leaves_of_resolve h
    refine ⟨fun line hline name hname => (hleaves line hline name hname).1,
      resolve_of_leaves hleaves, fun hpolicy line hline => ?_⟩
    rw [List.eq_nil_iff_forall_not_mem]
    intro name hname
    exact (hleaves line hline name hname).2 hpolicy
  · intro hpolicy h
    exact resolve_of_leaves (fun line hline name hname => ⟨h line hline name hname, hpolicy⟩) memo

def joining (policy : Policy) : Context where
  store := ⟨[.code ⟨⟨"d.md", "x\n" ++ opening ++ "b\n", 1, 4⟩, "a"⟩,
    .code ⟨⟨"d.md", "1\n2\n", 6, 9⟩, "b"⟩]⟩
  options := { Options.defaults with unresolved := policy, outputSource := false }
  base := ⟨"/"⟩
  fetch _ := .error (.tagNotFound [] [])

theorem resolve_settles_joining :
    ((joining .warn).resolve [] ("\t" ++ placeholder "a" ++ closing ++ placeholder "z")).1 =
        .ok ("\tx\n\t1\n\t2" ++ placeholder "z") ∧
      (∀ memo, ((joining .warn).resolve memo ("\tx\n\t1\n\t2" ++ placeholder "z")).1 =
        .ok ("\tx\n\t1\n\t2" ++ placeholder "z")) ∧
      ((joining .error).resolve [] (placeholder "a" ++ closing)).1 = .ok "x\n1\n2" ∧
      (∀ line ∈ split lf "x\n1\n2", names line = []) ∧
      ((joining .keep).resolve [] (placeholder "y")).1 = .ok (placeholder "y") := by
  have hwarn : ((joining .warn).resolve []
      ("\t" ++ placeholder "a" ++ closing ++ placeholder "z")).1 =
        .ok ("\tx\n\t1\n\t2" ++ placeholder "z") := by
    decide +kernel
  have herror : ((joining .error).resolve [] (placeholder "a" ++ closing)).1 =
      .ok "x\n1\n2" := by
    decide +kernel
  exact ⟨hwarn, ((resolve_settles (joining .warn) [] _).1 _ hwarn).2.1, herror,
    ((resolve_settles (joining .error) [] _).1 _ herror).2.2 rfl,
    (resolve_settles (joining .keep) [] _).2 (by decide) (by decide +kernel)⟩

end Context

end Tangle.Expansion
