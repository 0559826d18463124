import Tangle.Proofs.Expansion.Remainder
import Tangle.Proofs.Text.Lines

namespace Tangle

open Text

namespace Text

def indentLines (w t : Text) : Text := join [lf] ((split lf t).map (w ++ ·))

variable {w : Text}

theorem indentLines_append_cons (w t u : Text) :
    indentLines w (t ++ lf :: u) = indentLines w t ++ lf :: indentLines w u := by
  have hmap : ∀ v, (split lf v).map (w ++ ·) ≠ [] := fun v => by simp [split_ne_nil]
  rw [indentLines, split_append_cons, List.map_append, join_append _ (hmap t) (hmap u)]
  simp [indentLines]

theorem indentLines_eq (w t : Text) : indentLines w t = w ++ hang w t := by
  have hline : ∀ line, lf ∉ line → indentLines w line = w ++ hang w line := by
    intro line hline
    rw [indentLines, split_eq_singleton hline, hang_eq_self w hline]
    rfl
  induction t using lines_induction with
  | nil => exact hline [] List.not_mem_nil
  | last line _ h => exact hline line h
  | cons line t h ih =>
    rw [indentLines_append_cons, ih, hline line h, hang_append, hang_cons_lf, List.append_assoc]

theorem indentLines_join (w : Text) {lines : List Text} (h : lines ≠ []) :
    indentLines w (join [lf] lines) = join [lf] (lines.map (indentLines w)) := by
  induction lines with
  | nil => exact absurd rfl h
  | cons line lines ih =>
    cases lines with
    | nil => rfl
    | cons second lines =>
      have hne := List.cons_ne_nil second lines
      have hmap : (second :: lines).map (indentLines w) ≠ [] := List.cons_ne_nil _ _
      rw [join_cons _ _ hne, List.append_assoc, List.singleton_append, indentLines_append_cons,
        ih hne, List.map_cons (a := line), join_cons _ _ hmap, List.append_assoc,
        List.singleton_append]

theorem split_indentLines (hw : lf ∉ w) (t : Text) :
    split lf (indentLines w t) = (split lf t).map (w ++ ·) := by
  refine split_join (by simp [split_ne_nil]) fun line hline => ?_
  obtain ⟨part, hpart, rfl⟩ := List.mem_map.1 hline
  simp [hw, notMem_of_mem_split hpart]

theorem lf_notMem_of_isIndent (hw : ∀ b ∈ w, isIndent b = true) : lf ∉ w := by
  intro hlf
  exact absurd (hw lf hlf) (by decide)

theorem indentation_append (hw : ∀ b ∈ w, isIndent b = true) (line : Text) :
    indentation (w ++ line) = w ++ indentation line :=
  List.takeWhile_append_of_pos hw

theorem lf_notMem_indentation (line : Text) : lf ∉ indentation line := by
  refine lf_notMem_of_isIndent fun b hb => ?_
  exact List.mem_takeWhile_imp hb

end Text

namespace Expansion

namespace Dialogue

variable {s : Store} {α β σ ε : Type}

def map (g : α → β) (p : Dialogue s α) : Dialogue s β := p.bind fun a => done (g a)

theorem map_bind (g : α → β) {γ : Type} (p : Dialogue s α) (k : β → Dialogue s γ) :
    (p.map g).bind k = p.bind fun a => k (g a) := by
  rw [map, bind_assoc]
  rfl

theorem bind_map {γ : Type} (g : β → γ) (p : Dialogue s α) (k : α → Dialogue s β) :
    (p.bind k).map g = p.bind fun a => (k a).map g :=
  bind_assoc p k _

theorem run_map (r : Respondent s σ ε) (g : α → β) (p : Dialogue s α) (st : σ) :
    (p.map g).run r st = ((p.run r st).1.map g, (p.run r st).2) := by
  rw [map, run_bind]
  rcases p.run r st with ⟨_ | _, _⟩ <;> rfl

end Dialogue

namespace Context

variable (ctx : Context) {w : Text}

theorem segmentDialogue_append_indent {indent : Text} (hindent : lf ∉ indent) (line : Nat)
    {segment : Segment} (hsegment : lf ∉ segment.text) :
    ctx.segmentDialogue (w ++ indent) line segment =
      (ctx.segmentDialogue indent line segment).map fun r => (hang w r.1, r.2) := by
  have hself := hang_eq_self w hsegment
  cases segment with
  | byte b => simpa [segmentDialogue, Dialogue.map, Dialogue.bind, Segment.text] using hself.symm
  | token run =>
    simp only [segmentDialogue]
    cases ctx.find? (tokenName run) with
    | none =>
      dsimp only
      split
      · rfl
      · simp [Dialogue.map, Dialogue.bind, hself]
    | some i => simp [Dialogue.map, Dialogue.bind, hang_hang hindent]

theorem segmentsDialogue_append_indent {indent : Text} (hindent : lf ∉ indent) (line : Nat)
    {parts : List Segment} (hparts : ∀ segment ∈ parts, lf ∉ segment.text) :
    ctx.segmentsDialogue (w ++ indent) line parts =
      (ctx.segmentsDialogue indent line parts).map fun r => (hang w r.1, r.2) := by
  induction parts with
  | nil => rfl
  | cons segment rest ih =>
    obtain ⟨hsegment, hrest⟩ := List.forall_mem_cons.1 hparts
    simp only [segmentsDialogue, ctx.segmentDialogue_append_indent hindent line hsegment, ih hrest,
      Dialogue.map_bind, Dialogue.bind_map]
    simp only [Dialogue.map, Dialogue.bind, hang_append]

theorem segmentsDialogue_append_bytes (indent : Text) (line : Nat) (w : Text)
    (parts : List Segment) :
    ctx.segmentsDialogue indent line (w.map .byte ++ parts) =
      (ctx.segmentsDialogue indent line parts).map fun r => (w ++ r.1, r.2) := by
  induction w with
  | nil => exact (Dialogue.bind_done _).symm
  | cons b w ih =>
    simp only [List.map_cons, List.cons_append, segmentsDialogue, segmentDialogue, ih,
      Dialogue.bind, Dialogue.map_bind]
    simp [Dialogue.map]

variable (hw : ∀ b ∈ w, isIndent b = true)

include hw

theorem lineDialogue_append (line : Nat) {text : Text} (htext : lf ∉ text) :
    ctx.lineDialogue line (w ++ text) =
      (ctx.lineDialogue line text).map fun r => (indentLines w r.1, r.2) := by
  have hbrace : ∀ b ∈ w, isBrace b = false := fun b hb => not_isBrace_of_isIndent (hw b hb)
  have hparts : ∀ segment ∈ segments text, lf ∉ segment.text := by
    intro segment hsegment hlf
    apply htext
    rw [← flatMap_text_segments text]
    exact List.mem_flatMap.2 ⟨segment, hsegment, hlf⟩
  rw [lineDialogue, indentation_append hw, segments_append_of_not_isBrace hbrace,
    segmentsDialogue_append_bytes,
    ctx.segmentsDialogue_append_indent (lf_notMem_indentation text) line hparts, Dialogue.map,
    Dialogue.map_bind]
  simp only [indentLines_eq]
  rfl

theorem linesDialogue_map_append (line : Nat) {lines : List Text}
    (hlines : ∀ text ∈ lines, lf ∉ text) :
    ctx.linesDialogue line (lines.map (w ++ ·)) =
      (ctx.linesDialogue line lines).map fun r => (r.1.map (indentLines w), r.2) := by
  induction lines generalizing line with
  | nil => rfl
  | cons text rest ih =>
    obtain ⟨htext, hrest⟩ := List.forall_mem_cons.1 hlines
    simp only [List.map_cons, linesDialogue, ctx.lineDialogue_append hw line htext,
      ih (line + 1) hrest, Dialogue.map_bind, Dialogue.bind_map]
    simp only [Dialogue.map, Dialogue.bind, List.map_cons]

end Context

/-- What an expansion comes to when its text is indented by `w`: the outcome is indented, or the
failure is the same. The text that is left when the passes run out is indented as well. -/
inductive Indented (w : Text) : Except Failure Text → Except Failure Text → Prop
  | ok (out : Text) : Indented w (.ok out) (.ok (indentLines w out))
  | limit (passes : Nat) (left : Text) :
    Indented w (.error (.limit passes left)) (.error (.limit passes (indentLines w left)))
  | error (f : Failure) : Indented w (.error f) (.error f)

namespace Context

theorem indented_run_passesDialogue (ctx : Context) (content : ctx.Content) {w : Text}
    (hw : ∀ b ∈ w, isIndent b = true) (passes : Nat) (text : Text) (s : Session ctx.store) :
    Indented w ((ctx.passesDialogue passes text).run (ctx.respondent content) s).1
        ((ctx.passesDialogue passes (indentLines w text)).run (ctx.respondent content) s).1 ∧
      ((ctx.passesDialogue passes (indentLines w text)).run (ctx.respondent content) s).2 =
        ((ctx.passesDialogue passes text).run (ctx.respondent content) s).2 := by
  induction passes generalizing text s with
  | zero => exact ⟨.limit .., rfl⟩
  | succ passes ih =>
    have hlines : ∀ line ∈ split lf text, lf ∉ line := fun line hline => notMem_of_mem_split hline
    simp only [passesDialogue, split_indentLines (lf_notMem_of_isIndent hw),
      ctx.linesDialogue_map_append hw 1 hlines, Dialogue.run_bind, Dialogue.run_map]
    rcases hrun : (ctx.linesDialogue 1 (split lf text)).run (ctx.respondent content) s with
      ⟨f | ⟨lines, n⟩, s'⟩
    · exact ⟨.error f, rfl⟩
    · have hne : lines ≠ [] :=
        (ctx.always_ne_nil_linesDialogue 1 (split_ne_nil lf text)).of_run hrun
      -- Both passes replaced the same number of placeholders, so both go on or neither does.
      cases n with
      | zero =>
        simp only [Except.map, ← indentLines_join w hne]
        exact ⟨.ok _, rfl⟩
      | succ n =>
        simp only [Except.map, ← indentLines_join w hne]
        exact ih _ _

theorem resolve_indentLines (ctx : Context) (memo : List (ctx.store.Id × Text)) {w : Text}
    (hw : ∀ b ∈ w, isIndent b = true) (text : Text) :
    Indented w (ctx.resolve memo text).1 (ctx.resolve memo (indentLines w text)).1 ∧
      (ctx.resolve memo (indentLines w text)).2 = (ctx.resolve memo text).2 := by
  simp only [resolve, expandWith_eq_run]
  exact ctx.indented_run_passesDialogue (ctx.contentOf []) hw _ text (ctx.start memo)

theorem resolve_indentLines_joining :
    (∀ b ∈ (" \t" : Text), isIndent b = true) ∧
      ((joining .keep).resolve [] ("\n  " ++ placeholder "a" ++ closing)).1 =
        .ok "\n  x\n  1\n  2" ∧
      indentLines " \t" "\n  x\n  1\n  2" = " \t\n \t  x\n \t  1\n \t  2" ∧
      Indented " \t" ((joining .keep).resolve [] ("\n  " ++ placeholder "a" ++ closing)).1
        ((joining .keep).resolve []
          (indentLines " \t" ("\n  " ++ placeholder "a" ++ closing))).1 :=
  ⟨by decide +kernel, by decide +kernel, by decide,
    (resolve_indentLines (joining .keep) [] (by decide +kernel) _).1⟩

end Context

end Expansion

end Tangle
