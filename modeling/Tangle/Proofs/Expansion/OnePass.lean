import Tangle.Proofs.Expansion.Limit
import Tangle.Proofs.Expansion.Spelling
import Tangle.Proofs.Path
import Tangle.Proofs.Text.Lines

namespace Tangle.Expansion

open Text

namespace Dialogue

variable {s : Store} {α β σ : Type} {P : s.Id → Prop} {D : Text → Prop} {Q : α → Prop}

/-- As long as the answers are in `D`, the passes suffice, only blocks in `P` are asked for, and
what comes out is in `Q`. -/
def Ensures (P : s.Id → Prop) (D : Text → Prop) (Q : α → Prop) : Dialogue s α → Prop
  | done a => Q a
  | fail f => ¬ f.IsLimit
  | ask i next => P i ∧ ∀ text, D text → (next text).Ensures P D Q
  | tell _ _ next => next.Ensures P D Q

theorem Ensures.bind {Q' : β → Prop} {p : Dialogue s α} {k : α → Dialogue s β}
    (hp : p.Ensures P D Q) (hk : ∀ a, Q a → (k a).Ensures P D Q') :
    (p.bind k).Ensures P D Q' := by
  induction p with
  | done a => exact hk a hp
  | fail f => exact hp
  | ask i next ih => exact ⟨hp.1, fun text htext => ih text (hp.2 text htext)⟩
  | tell name line next ih => exact ih hp

theorem Yields.ensures {p : Dialogue s α} {a : α} (hp : p.Yields a) (ha : Q a) :
    p.Ensures P D Q := by
  induction p with
  | done b =>
    cases hp
    exact ha
  | fail f => cases hp
  | ask i next => cases hp
  | tell name line next ih => exact ih hp

theorem Ensures.of_eval {c : s.Id → Except Failure Text} {p : Dialogue s α} {a : α}
    (hp : p.Ensures P D Q) (hc : ∀ i text, P i → c i = .ok text → D text)
    (h : p.eval c = .ok a) : Q a := by
  induction p with
  | done b =>
    obtain rfl : b = a := Except.ok.inj h
    exact hp
  | fail f => simp [eval] at h
  | ask i next ih =>
    simp only [eval] at h
    split at h
    next => simp at h
    next text hi => exact ih text (hp.2 text (hc i text hp.1 hi)) h
  | tell name line next ih => exact ih hp h

theorem Ensures.not_runsOut {content : s.Id → σ → Except Failure Text × σ}
    {hear : Text → Nat → σ → σ} {I : σ → Prop} {p : Dialogue s α} (hp : p.Ensures P D Q)
    (hcontent : ∀ i st, P i → I st → ¬ RunsOut (content i st).1 ∧
      (∀ text, (content i st).1 = .ok text → D text) ∧ I (content i st).2)
    (hhear : ∀ name line st, I st → I (hear name line st)) {st : σ} (h : I st) :
    ¬ RunsOut (p.run ⟨content, hear, id, Failure.within⟩ st).1 := by
  induction p generalizing st with
  | done a => exact not_runsOut_ok a
  | fail f => exact (runsOut_error f).not.2 hp
  | ask i next ih =>
    obtain ⟨hlimit, hD, hI⟩ := hcontent i st hp.1 h
    simp only [run]
    rcases hi : content i st with ⟨f | text, st'⟩
    · simpa [hi] using hlimit
    · rw [hi] at hD hI
      exact ih text (hp.2 text (hD text rfl)) hI
  | tell name line next ih => exact ih hp (hhear name line st h)

end Dialogue

namespace Context

variable (ctx : Context)

structure Tidy : Prop where
  body : ∀ b, .code b ∈ ctx.store.blocks → WellBraced b.body
  fetch : ∀ ref text, ctx.fetch ref = .ok text ∨
    (∃ file tag, ctx.fetch ref = .error (.tagNotClosed file tag text)) → WellBraced text
  source : ∀ b ∈ ctx.store.blocks, ∀ x ∈ b.region.source, isBrace x = false

def ShowsNoBraces : Prop :=
  ctx.options.outputSource = true → ctx.options.absoluteSources = true →
    ∀ b ∈ ctx.store.blocks, ∀ x ∈ ctx.base.resolve b.region.source, isBrace x = false

abbrev Final (text : Text) : Prop := Spelled (fun run => ctx.Leaves (tokenName run)) text

theorem tokenName_subset (run : Text) : tokenName run ⊆ run := by
  unfold tokenName
  cases h : field? run with
  | none => exact List.nil_subset _
  | some field => exact field?_subset h

theorem not_runsOut_raw (b : Block) (s : Session ctx.store) : ¬ RunsOut (ctx.raw b s).1 := by
  cases b with
  | reference r =>
    simp only [raw]
    cases ctx.fetch r.ref with
    | ok text => simp
    | error f => cases f <;> simp [Failure.IsLimit]
  | _ => simp [raw]

variable {ctx} {i : ctx.store.Id} {text : Text}

theorem Final.leaves (h : ctx.Final text) :
    ∀ line ∈ split lf text, ∀ name ∈ names line, ctx.Leaves name := by
  intro line hline name hname
  obtain ⟨run, hmem, rfl⟩ := mem_names.1 hname
  exact ((h.of_mem_split line hline).of_mem_segments _ hmem).2 run rfl

theorem not_isBrace_provenance {b : Block} {name : Text}
    (hsource : ∀ x ∈ b.region.source, isBrace x = false) (hname : ∀ x ∈ name, isBrace x = false)
    (hshown : ctx.options.outputSource = true → ctx.options.absoluteSources = true →
      ∀ x ∈ ctx.base.resolve b.region.source, isBrace x = false) :
    ∀ x ∈ ctx.provenance b name, isBrace x = false := by
  intro x hx
  unfold provenance at hx
  split at hx
  next houtput =>
    simp only [List.mem_append] at hx
    rcases hx with (((hx | hx) | hx) | hx) | hx
    · exact (by decide +kernel : ∀ b ∈ ofString "// Source: ", isBrace b = false) x hx
    · split at hx
      next habsolute => exact hshown houtput habsolute x hx
      next =>
        rcases Base.mem_display hx with hx | hx | rfl
        · exact hsource x hx
        · exact (by decide +kernel : ∀ b ∈ ofString "..", isBrace b = false) x hx
        · rfl
    · exact (by decide +kernel : ∀ b ∈ ofString "\n// Anchor: ", isBrace b = false) x hx
    · exact hname x hx
    · exact (by decide +kernel : ∀ b ∈ ofString "\n", isBrace b = false) x hx
  next => simp at hx

variable (h : ctx.Tidy) (hshown : ctx.ShowsNoBraces)

include h

theorem Tidy.rawText {raw : Text} (hi : ctx.Found i) (hraw : ctx.rawText i = .ok raw) :
    WellBraced raw := by
  have hmem : ctx.store.get i ∈ ctx.store.blocks := List.get_mem ..
  have hkind := hi.kind_eq
  unfold Context.rawText Context.raw at hraw
  cases hb : ctx.store.get i with
  | code b =>
    rw [hb] at hraw hmem
    obtain rfl := Except.ok.inj hraw
    exact (h.body b hmem).dropFinalLf
  | reference r =>
    rw [hb] at hraw
    dsimp only at hraw
    cases hfetch : ctx.fetch r.ref with
    | ok text =>
      rw [hfetch] at hraw
      obtain rfl := Except.ok.inj hraw
      exact (h.fetch r.ref text (.inl hfetch)).dropFinalLf
    | error f =>
      rw [hfetch] at hraw
      cases f with
      | tagNotClosed file tag text =>
        obtain rfl := Except.ok.inj hraw
        exact (h.fetch r.ref text (.inr ⟨file, tag, hfetch⟩)).dropFinalLf
      | _ => cases hraw
  | _ => simp [hb, Block.kind] at hkind

include hshown

theorem Tidy.not_isBrace_provenance {name : Text} (hname : ∀ b ∈ name, isBrace b = false)
    (hi : ctx.find? name = some i) :
    ∀ b ∈ ctx.provenance (ctx.store.get i) ((ctx.store.get i).name?.getD []),
      isBrace b = false := by
  have hmem : ctx.store.get i ∈ ctx.store.blocks := List.get_mem ..
  refine Context.not_isBrace_provenance (h.source _ hmem) ?_ ?_
  · exact fun b hb => hname b (name_subset_of_find? hi hb)
  · exact fun houtput habsolute => hshown houtput habsolute _ hmem

theorem Tidy.ensures_segmentDialogue {indent : Text}
    (hindent : ∀ b ∈ indent, isBrace b = false) (line : Nat) {segment : Segment}
    (hstray : segment.isStray = false)
    (hrun : ∀ run, segment = .token run → IsRun run ∧ lf ∉ run) :
    (ctx.segmentDialogue indent line segment).Ensures ctx.Found ctx.Final
      fun r => ctx.Final r.1 := by
  cases segment with
  | byte b => exact .byte hstray .nil
  | token run =>
    obtain ⟨hrun, hlf⟩ := hrun run rfl
    simp only [segmentDialogue]
    cases hi : ctx.find? (tokenName run) with
    | none =>
      dsimp only
      split
      next => exact id
      next hpolicy =>
        have htoken : ctx.Final ((Segment.token run).text ++ []) :=
          .token hrun hlf ⟨hi, hpolicy⟩ .nil
        rwa [List.append_nil] at htoken
    | some i =>
      refine ⟨⟨_, hi⟩, fun text htext => ?_⟩
      have hname : ∀ b ∈ tokenName run, isBrace b = false := fun b hb =>
        hrun.isBrace_eq_false b (tokenName_subset run hb)
      have hheader := h.not_isBrace_provenance hshown hname hi
      exact ((Spelled.of_not_isBrace hheader).append htext).hang hindent

theorem Tidy.ensures_segmentsDialogue {indent : Text}
    (hindent : ∀ b ∈ indent, isBrace b = false) (line : Nat) {parts : List Segment}
    (hstray : ∀ segment ∈ parts, segment.isStray = false)
    (hrun : ∀ run, .token run ∈ parts → IsRun run ∧ lf ∉ run) :
    (ctx.segmentsDialogue indent line parts).Ensures ctx.Found ctx.Final
      fun r => ctx.Final r.1 := by
  induction parts with
  | nil => exact .nil
  | cons segment rest ih =>
    obtain ⟨hsegment, hrest⟩ := List.forall_mem_cons.1 hstray
    apply (h.ensures_segmentDialogue hshown hindent line hsegment ?_).bind
    · intro r hr
      apply (ih hrest fun run hmem => hrun run (List.mem_cons_of_mem _ hmem)).bind
      intro r' hr'
      exact hr.append hr'
    · rintro run rfl
      exact hrun run (List.mem_cons_self ..)

theorem Tidy.ensures_linesDialogue (line : Nat) {lines : List Text}
    (hlf : ∀ text ∈ lines, lf ∉ text)
    (hstray : ∀ text ∈ lines, ∀ segment ∈ segments text, segment.isStray = false) :
    (ctx.linesDialogue line lines).Ensures ctx.Found ctx.Final
      fun r => ∀ text ∈ r.1, ctx.Final text := by
  induction lines generalizing line with
  | nil => exact fun text htext => by simp at htext
  | cons text rest ih =>
    obtain ⟨hlf, hlfs⟩ := List.forall_mem_cons.1 hlf
    obtain ⟨hstray, hstrays⟩ := List.forall_mem_cons.1 hstray
    have hindent : ∀ b ∈ indentation text, isBrace b = false := fun b hb =>
      not_isBrace_of_isIndent (List.mem_takeWhile_imp hb)
    apply (h.ensures_segmentsDialogue hshown hindent line hstray ?_).bind
    · intro r hr
      apply (ih (line + 1) hlfs hstrays).bind
      intro r' hr'
      exact List.forall_mem_cons.2 ⟨hr, hr'⟩
    · intro run hmem
      exact ⟨isRun_of_mem_segments hmem, lf_notMem_of_mem_segments hlf hmem⟩

theorem Tidy.ensures_pass (htext : WellBraced text) :
    (ctx.linesDialogue 1 (split lf text)).Ensures ctx.Found ctx.Final
      fun r => ∀ line ∈ r.1, ctx.Final line :=
  h.ensures_linesDialogue hshown 1 (fun _ hline => notMem_of_mem_split hline) htext

variable (hpasses : 1 ≤ ctx.options.maxPasses)

include hpasses

theorem Tidy.ensures_dialogue (htext : WellBraced text) :
    (ctx.dialogue text).Ensures ctx.Found ctx.Final ctx.Final := by
  obtain ⟨passes, hpasses⟩ := Nat.exists_eq_add_of_le' hpasses
  apply (h.ensures_pass hshown htext).bind
  rintro ⟨lines, n⟩ hlines
  have hfinal : ctx.Final (join [lf] lines) := .join hlines
  cases n with
  | zero => exact hfinal
  | succ n =>
    rw [hpasses]
    exact (yields_passesDialogue hfinal.leaves passes).ensures hfinal

theorem Tidy.final_of_settles (hi : ctx.Found i) (hsettles : ctx.Settles i text) :
    ctx.Final text := by
  obtain ⟨n, hn⟩ := hsettles
  induction n generalizing i text with
  | zero => simp [toDepth] at hn
  | succ n ih =>
    obtain ⟨raw, hraw, heval⟩ := toDepth_succ_eq_ok.1 hn
    have hdialogue := h.ensures_dialogue hshown hpasses (h.rawText hi hraw)
    exact hdialogue.of_eval (fun j text hj hj' => ih hj hj') heval

theorem Tidy.not_runsOut_run {content : ctx.Content}
    (hcontent : ∀ i s, ctx.Found i → ctx.Truthful s → ¬ RunsOut (content i s).1 ∧
      (∀ text, (content i s).1 = .ok text → ctx.Settles i text) ∧ ctx.Truthful (content i s).2)
    (htext : WellBraced text) {s : Session ctx.store} (hs : ctx.Truthful s) :
    ¬ RunsOut ((ctx.dialogue text).run (ctx.respondent content) s).1 := by
  apply (h.ensures_dialogue hshown hpasses htext).not_runsOut _ _ hs
  · intro i s hi hs
    obtain ⟨hlimit, hsettles, hs'⟩ := hcontent i s hi hs
    exact ⟨hlimit, fun text htext => h.final_of_settles hshown hpasses hi (hsettles text htext),
      hs'⟩
  · intro name line s hs
    exact hs.of_memo_eq (ctx.memo_unresolved name line s)

theorem Tidy.not_runsOut_contentOf (stack : List Frame) (i : ctx.store.Id) (s : Session ctx.store)
    (hi : ctx.Found i) (hs : ctx.Truthful s) : ¬ RunsOut (ctx.contentOf stack i s).1 := by
  induction stack using ctx.stack_induction generalizing i s with
  | step stack ih =>
    rw [contentOf_eq]
    split
    next => simp [Failure.IsLimit]
    next hcycle =>
      split
      next => simp
      next =>
        have hraw := ctx.rawText_eq i s
        have hs' := hs.of_memo_eq (ctx.memo_raw (ctx.store.get i) s)
        rcases hr : ctx.raw (ctx.store.get i) s with ⟨f | raw, s₁⟩
        · have hf := ctx.not_runsOut_raw (ctx.store.get i) s
          rw [hr] at hf
          simpa only [workOut, hr] using hf
        · rw [hr] at hraw hs'
          rw [runsOut_workOut hr]
          refine h.not_runsOut_run hshown hpasses (fun j s hj hs => ?_) (h.rawText hi hraw) hs'
          obtain ⟨hsettles, hs'⟩ := Truthful.contentOf (stack ++ [ctx.frame i]) j s hs
          exact ⟨ih i hcycle j s hj hs, hsettles, hs'⟩

theorem Tidy.not_runsOut_resolve {memo : List (ctx.store.Id × Text)}
    (hmemo : ctx.Truthful (ctx.start memo)) (htext : WellBraced text) :
    ¬ RunsOut (ctx.resolve memo text).1 := by
  rw [resolve, expandWith_eq_run]
  refine h.not_runsOut_run hshown hpasses (fun j s hj hs => ?_) htext hmemo
  obtain ⟨hsettles, hs'⟩ := Truthful.contentOf [] j s hs
  exact ⟨h.not_runsOut_contentOf hshown hpasses [] j s hj hs, hsettles, hs'⟩

omit h hshown hpasses

section Substitute

variable (ctx) (content : ctx.store.Id → Text)

def substituteSegment (indent : Text) : Segment → Text
  | .byte b => [b]
  | .token run =>
    match ctx.find? (tokenName run) with
    | none => (Segment.token run).text
    | some i =>
      let b := ctx.store.get i
      hang indent (ctx.provenance b (b.name?.getD []) ++ content i)

def substitute (text : Text) : Text :=
  join [lf] ((split lf text).map fun line =>
    (segments line).flatMap (ctx.substituteSegment content (indentation line)))

def contentFrom (c : ctx.store.Id → Except Failure Text) (i : ctx.store.Id) : Text :=
  (c i).toOption.getD []

end Substitute

variable {c : ctx.store.Id → Except Failure Text}

theorem eval_segmentDialogue_eq_ok {indent : Text} {line : Nat} {segment : Segment} {r : Text × Nat}
    (hr : (ctx.segmentDialogue indent line segment).eval c = .ok r) :
    r.1 = ctx.substituteSegment (ctx.contentFrom c) indent segment := by
  cases segment with
  | byte b =>
    obtain rfl := Except.ok.inj hr
    rfl
  | token run =>
    simp only [segmentDialogue, substituteSegment] at hr ⊢
    cases hi : ctx.find? (tokenName run) with
    | none =>
      rw [hi] at hr
      dsimp only at hr ⊢
      split at hr
      next => cases hr
      next =>
        obtain rfl := Except.ok.inj hr
        rfl
    | some i =>
      rw [hi] at hr
      simp only [Dialogue.eval, contentFrom] at hr ⊢
      cases hc : c i with
      | error f => simp [hc] at hr
      | ok text =>
        rw [hc] at hr
        obtain rfl := Except.ok.inj hr
        rfl

theorem eval_segmentsDialogue_eq_ok {indent : Text} {line : Nat} {parts : List Segment}
    {r : Text × Nat} (hr : (ctx.segmentsDialogue indent line parts).eval c = .ok r) :
    r.1 = parts.flatMap (ctx.substituteSegment (ctx.contentFrom c) indent) := by
  induction parts generalizing r with
  | nil =>
    obtain rfl := Except.ok.inj hr
    rfl
  | cons segment rest ih =>
    obtain ⟨r₁, hsegment, hr⟩ := Dialogue.eval_bind_eq_ok.1 hr
    obtain ⟨r₂, hrest, hr⟩ := Dialogue.eval_bind_eq_ok.1 hr
    obtain rfl := Except.ok.inj hr
    rw [List.flatMap_cons, ← eval_segmentDialogue_eq_ok hsegment, ← ih hrest]

theorem eval_linesDialogue_eq_ok {line : Nat} {lines : List Text} {r : List Text × Nat}
    (hr : (ctx.linesDialogue line lines).eval c = .ok r) :
    r.1 = lines.map fun text =>
      (segments text).flatMap (ctx.substituteSegment (ctx.contentFrom c) (indentation text)) := by
  induction lines generalizing line r with
  | nil =>
    obtain rfl := Except.ok.inj hr
    rfl
  | cons text rest ih =>
    obtain ⟨r₁, htext, hr⟩ := Dialogue.eval_bind_eq_ok.1 hr
    obtain ⟨r₂, hrest, hr⟩ := Dialogue.eval_bind_eq_ok.1 hr
    obtain rfl := Except.ok.inj hr
    rw [List.map_cons, ← eval_segmentsDialogue_eq_ok htext, ← ih hrest]

theorem eq_substitute_of_eval {out : Text} (h : ctx.Tidy) (hshown : ctx.ShowsNoBraces)
    (htext : WellBraced text) (hc : ∀ i text, ctx.Found i → c i = .ok text → ctx.Final text)
    (hout : (ctx.dialogue text).eval c = .ok out) :
    out = ctx.substitute (ctx.contentFrom c) text := by
  obtain ⟨⟨lines, n⟩, hlines, hout⟩ := Dialogue.eval_bind_eq_ok.1 hout
  have hfinal : ctx.Final (join [lf] lines) :=
    .join ((h.ensures_pass hshown htext).of_eval hc hlines)
  rw [substitute, ← eval_linesDialogue_eq_ok hlines]
  cases n with
  | zero => exact (Except.ok.inj hout).symm
  | succ n =>
    dsimp only at hout
    cases hpasses : ctx.options.maxPasses with
    | zero => simp [hpasses, passesDialogue, Dialogue.eval] at hout
    | succ passes =>
      rw [hpasses, (yields_passesDialogue hfinal.leaves passes).eval c] at hout
      exact (Except.ok.inj hout).symm

/-- Without stray braces one pass that replaces is enough: the passes never run out, more of them
change nothing, and what comes out has no stray braces either and is the text with each placeholder
that means a block replaced by the header and the expanded text of that block. -/
theorem resolve_in_one_pass (ctx : Context) (h : ctx.Tidy) (hshown : ctx.ShowsNoBraces)
    (hpasses : 1 ≤ ctx.options.maxPasses) {text : Text} (htext : WellBraced text) :
    (∀ before, ¬ RunsOut (ctx.resolve (ctx.memoAfter [] before) text).1) ∧
    (∀ n, 1 ≤ n → (ctx.withPasses n).resolve [] text = ctx.resolve [] text) ∧
    ∀ before out, (ctx.resolve (ctx.memoAfter [] before) text).1 = .ok out →
      WellBraced out ∧ ∃ content : ctx.store.Id → Text,
        (∀ i, ctx.Shows text i → ctx.Settles i (content i)) ∧
          out = ctx.substitute content text := by
  refine ⟨fun before => ?_, fun n hn => ?_, fun before out hout => ?_⟩
  · exact h.not_runsOut_resolve hshown hpasses (Truthful.start.memoAfter before) htext
  · have htidy : (ctx.withPasses 1).Tidy := ⟨h.body, h.fetch, h.source⟩
    have hone : ¬ RunsOut ((ctx.withPasses 1).resolve [] text).1 :=
      htidy.not_runsOut_resolve hshown le_rfl .start htext
    exact (ctx.resolve_withPasses hn hone).trans (ctx.resolve_withPasses hpasses hone).symm
  · rw [resolve, expandWith_eq_run] at hout
    obtain ⟨n, hn⟩ := (Truthful.run (Truthful.contentOf []) (ctx.dialogue text)
      (Truthful.start.memoAfter before)).1 out hout
    have hfinal : ∀ i text, ctx.Found i → ctx.toDepth n i = .ok text → ctx.Final text :=
      fun i text hi htext => h.final_of_settles hshown hpasses hi ⟨n, htext⟩
    refine ⟨((h.ensures_dialogue hshown hpasses htext).of_eval hfinal hn).wellBraced,
      ctx.contentFrom (ctx.toDepth n), fun i hi => ?_,
      eq_substitute_of_eval h hshown htext hfinal hn⟩
    obtain ⟨text', hi'⟩ := Dialogue.exists_ok_of_asks (c := ctx.toDepth n)
      (fun j t t' ht ht' => Except.ok.inj (ht.symm.trans ht')) (asks_of_shows hn hi) hn
    exact ⟨n, by simp [contentFrom, hi', Except.toOption]⟩

theorem tidy_nested : nested.Tidy where
  body := by
    have hblocks : ∀ b ∈ nested.store.blocks, WellBraced b.region.body := by decide +kernel
    exact fun b hb => hblocks _ hb
  fetch := by
    rintro ref text (h | ⟨file, tag, h⟩) <;> cases h
  source := by decide +kernel

theorem resolve_in_one_pass_nested :
    nested.Tidy ∧ nested.ShowsNoBraces ∧ 1 ≤ nested.options.maxPasses ∧
      WellBraced (" \n  y " ++ placeholder "a" ++ placeholder "z") ∧
      (nested.resolve [] (" \n  y " ++ placeholder "a" ++ placeholder "z")).1 =
        .ok (" \n  y // Source: d.md\n  // Anchor: a\n  x // Source: d.md\n  // Anchor: b\n  1" ++
          placeholder "z") ∧
      ∃ content : nested.store.Id → Text,
        (∀ i, nested.Shows (" \n  y " ++ placeholder "a" ++ placeholder "z") i →
          nested.Settles i (content i)) ∧
        " \n  y // Source: d.md\n  // Anchor: a\n  x // Source: d.md\n  // Anchor: b\n  1" ++
            placeholder "z" =
          nested.substitute content (" \n  y " ++ placeholder "a" ++ placeholder "z") := by
  have hshown : nested.ShowsNoBraces := fun _ h => by cases h
  have htext : WellBraced (" \n  y " ++ placeholder "a" ++ placeholder "z") := by decide +kernel
  have hout : (nested.resolve [] (" \n  y " ++ placeholder "a" ++ placeholder "z")).1 =
      .ok (" \n  y // Source: d.md\n  // Anchor: a\n  x // Source: d.md\n  // Anchor: b\n  1" ++
        placeholder "z") := by
    decide +kernel
  exact ⟨tidy_nested, hshown, by decide, htext, hout,
    ((resolve_in_one_pass nested tidy_nested hshown (by decide) htext).2.2 [] _ hout).2⟩

def looping : Context where
  store := ⟨[.code ⟨⟨"d.md", "x\n", 1, 3⟩, "a"⟩]⟩
  options := { Options.defaults with
    inputPath := "/" ++ placeholder "a", absoluteSources := true, maxPasses := 1 }
  base := ⟨"/" ++ placeholder "a"⟩
  fetch _ := .error (.tagNotFound [] [])

/-- Braces in the paths of headers are not harmless: each replacement brings in the placeholder
again. -/
theorem looping_runsOut :
    looping.Tidy ∧ 1 ≤ looping.options.maxPasses ∧ WellBraced (placeholder "a") ∧
      RunsOut (looping.resolve [] (placeholder "a")).1 := by
  have htidy : looping.Tidy := by
    refine ⟨?_, ?_, by decide +kernel⟩
    · have hblocks : ∀ b ∈ looping.store.blocks, WellBraced b.region.body := by decide +kernel
      exact fun b hb => hblocks _ hb
    · rintro ref text (h | ⟨file, tag, h⟩) <;> cases h
  have hlimit : (looping.resolve [] (placeholder "a")).1 =
      .error (.limit 1 ("// Source: /// Source: /" ++ placeholder "a" ++
        "/d.md\n// Anchor: a\nx/d.md\n// Anchor: a\nx")) := by
    decide +kernel
  exact ⟨htidy, by decide, by decide +kernel, _, hlimit, trivial⟩

end Context

end Tangle.Expansion
