import Tangle.Write.Patch
import Tangle.Proofs.Document.Marker
import Tangle.Proofs.Document.Partition
import Tangle.Proofs.Expansion.Indentation
import Tangle.Proofs.Expansion.Linewise
import Tangle.Proofs.Expansion.OnePass

namespace Tangle

open Text Expansion

theorem Text.cut_append_of_head_notMem {b : UInt8} {sep before : Text} (h : b ∉ before)
    (rest : Text) : cut (b :: sep) (before ++ (b :: sep) ++ rest) = some (before, rest) := by
  induction before with
  | nil => exact cut_append_self (List.cons_ne_nil b sep) rest
  | cons a before ih =>
    simp only [List.mem_cons, not_or] at h
    have hnone : after? (b :: sep) (a :: before ++ (b :: sep) ++ rest) = none := by
      simp [after?, h.1]
    rw [List.cons_append, List.cons_append] at hnone ⊢
    rw [cut, hnone, ih h.2]
    rfl

theorem isSpace_of_isBlank1 {b : UInt8} (h : isBlank1 b = false) : isSpace b = false := by
  refine Bool.eq_false_iff.2 fun hspace => ?_
  simp only [isSpace, Bool.or_eq_true, beq_iff_eq] at hspace
  rcases hspace with (((rfl | rfl) | rfl) | rfl) | rfl <;> cases h

theorem placeholder_eq_token (name : Text) :
    placeholder name = (Segment.token (space :: (name ++ [space]))).text := by
  have hopening : ofString "\x7b\x7b\x7b " = opening ++ [space] := by decide
  have hclosing : ofString " \x7d\x7d\x7d" = space :: closing := by decide
  simp [placeholder, Segment.text, hopening, hclosing]

theorem IsName.isField {name : Text} (h : IsName name) : IsField name where
  ne_nil := h.ne_nil
  isSpace_head b hb := isSpace_of_isBlank1 (h.isBlank1_head b hb)
  isSpace_last b hb := isSpace_of_isBlank1 (h.isBlank1_last b hb)

theorem IsName.tokenName_eq {name : Text} (h : IsName name) :
    tokenName (space :: (name ++ [space])) = name := by
  have hspace : ∀ b ∈ [space], isSpace b = true := by decide +kernel
  rw [tokenName, h.isField.field?_eq hspace]
  rfl

namespace Lexer

theorem name_of_mem_literate {o : Origin} {attrs : Attributes} {r : Region} {line : Nat} {b : Code}
    (h : .code b ∈ (literate o attrs r line).blocks) :
    b.name = attrs.get "name" ∧ attrs.get "name" ≠ [] := by
  have htype : attrs.get "type" = "code" := (mem_blocks_literate h).2.2.symm
  simp only [literate, htype, if_true, requiring] at h
  split at h
  next => cases h
  next hname =>
    cases List.mem_singleton.1 h
    exact ⟨rfl, hname⟩

end Lexer

open Lexer in
theorem isName_of_mem_lex {source relDir text : Text} {b : Code}
    (h : .code b ∈ (lex source relDir text).blocks) : IsName b.name := by
  obtain ⟨opening, hopening, r, line, hb⟩ := exists_literate_of_mem_blocks h rfl
  obtain ⟨hname, hne⟩ := name_of_mem_literate hb
  rw [hname]
  exact isName_get (lf_notMem_dropLineEnd hopening) hne

namespace Expansion.Context

variable {ctx : Context} {c : ctx.store.Id → Except Failure Text} {i : ctx.store.Id}
  {run t before lead after : Text}

theorem indentation_append_token (lead run after : Text) :
    indentation (lead ++ (Segment.token run).text ++ after) = indentation lead := by
  unfold indentation
  induction lead with
  | nil => rfl
  | cons b lead ih =>
    simp only [List.cons_append, List.takeWhile_cons, ih]

theorem passes_of_not_isBrace (h : ∀ b ∈ t, isBrace b = false) : ctx.Passes c t (t, 0) := by
  have hfinal : ctx.Final t := .of_not_isBrace h
  exact eval_passesDialogue_one.1 ((yields_passesDialogue hfinal.leaves 0).eval c)

def inserted (ctx : Context) (i : ctx.store.Id) (t : Text) : Text :=
  ctx.provenance (ctx.store.get i) ((ctx.store.get i).name?.getD []) ++ t

def lastLine (t : Text) : Text := ((cutLast lf t).map (·.2)).getD t

section Token

variable (hrun : IsRun run) (hlf : lf ∉ run) (hfind : ctx.find? (tokenName run) = some i)
  (hi : c i = .ok t)

include hrun hlf hfind hi

theorem passes_token_line (hlead : ∀ b ∈ lead, isBrace b = false) (hlead' : lf ∉ lead)
    (hafter : ∀ b ∈ after, isBrace b = false) (hafter' : lf ∉ after) :
    ctx.Passes c (lead ++ (Segment.token run).text ++ after)
      (lead ++ hang (indentation lead) (ctx.inserted i t) ++ after, 1) := by
  have hline : lf ∉ lead ++ (Segment.token run).text ++ after := by
    simp [hlead', hafter', lf_notMem_token hlf]
  have hsegments : segments (lead ++ (Segment.token run).text ++ after) =
      lead.map .byte ++ .token run :: (after.map .byte ++ []) := by
    have hlead := segments_append_of_not_isBrace hlead []
    have hafter := segments_append_of_not_isBrace hafter []
    rw [List.append_nil] at hlead hafter
    rw [segments_append_token hrun, hlead, hafter]
    simp [segments]
  refine ⟨[lead ++ hang (indentation lead) (ctx.inserted i t) ++ after], ?_, rfl⟩
  rw [split_eq_singleton hline]
  simp only [linesDialogue, lineDialogue, indentation_append_token, hsegments,
    segmentsDialogue_append_bytes, segmentsDialogue, segmentDialogue, hfind]
  simp [Dialogue.map, Dialogue.bind, Dialogue.eval, hi, inserted]

theorem passes_token_lead (hlead : ∀ b ∈ lead, isBrace b = false) (hlead' : lf ∉ lead)
    (hafter : ∀ b ∈ after, isBrace b = false) :
    ctx.Passes c (lead ++ (Segment.token run).text ++ after)
      (lead ++ hang (indentation lead) (ctx.inserted i t) ++ after, 1) := by
  by_cases hafter' : lf ∈ after
  · obtain ⟨rest, below, rfl, hrest⟩ := List.eq_append_cons_of_mem hafter'
    have hrest' : ∀ b ∈ rest, isBrace b = false := fun b hb => hafter b (by simp [hb])
    have hbelow : ∀ b ∈ below, isBrace b = false := fun b hb => hafter b (by simp [hb])
    have hline := passes_token_line hrun hlf hfind hi hlead hlead' hrest' hrest
    rw [← List.append_assoc, ← List.append_assoc]
    exact passes_append.2 ⟨_, _, hline, passes_of_not_isBrace hbelow, rfl⟩
  · exact passes_token_line hrun hlf hfind hi hlead hlead' hafter hafter'

theorem passes_token (hbefore : ∀ b ∈ before, isBrace b = false)
    (hafter : ∀ b ∈ after, isBrace b = false) :
    ctx.Passes c (before ++ (Segment.token run).text ++ after)
      (before ++ hang (indentation (lastLine before)) (ctx.inserted i t) ++ after, 1) := by
  cases hcut : cutLast lf before with
  | none =>
    have hlast : lastLine before = before := by simp [lastLine, hcut]
    rw [hlast]
    exact passes_token_lead hrun hlf hfind hi hbefore (notMem_of_cutLast_eq_none hcut) hafter
  | some parts =>
    obtain ⟨above, lead⟩ := parts
    have hlast : lastLine before = lead := by simp [lastLine, hcut]
    obtain ⟨rfl, hlead⟩ := cutLast_eq_some_iff.1 hcut
    have habove : ∀ b ∈ above, isBrace b = false := fun b hb => hbefore b (by simp [hb])
    have hlead' : ∀ b ∈ lead, isBrace b = false := fun b hb => hbefore b (by simp [hb])
    have hline := passes_token_lead hrun hlf hfind hi hlead' hlead hafter
    rw [hlast]
    simp only [List.append_assoc, List.cons_append] at hline ⊢
    exact passes_append.2 ⟨_, _, passes_of_not_isBrace habove, hline, rfl⟩

end Token

theorem eval_dialogue_token (hpasses : 1 ≤ ctx.options.maxPasses) (hrun : IsRun run)
    (hlf : lf ∉ run) (hfind : ctx.find? (tokenName run) = some i) (hi : c i = .ok t)
    (hinserted : ∀ b ∈ ctx.inserted i t, isBrace b = false)
    (hbefore : ∀ b ∈ before, isBrace b = false) (hafter : ∀ b ∈ after, isBrace b = false) :
    (ctx.dialogue (before ++ (Segment.token run).text ++ after)).eval c =
      .ok (before ++ hang (indentation (lastLine before)) (ctx.inserted i t) ++ after) := by
  obtain ⟨passes, hpasses⟩ := Nat.exists_eq_add_of_le' hpasses
  have hindent : ∀ b ∈ indentation (lastLine before), isBrace b = false := fun b hb =>
    not_isBrace_of_isIndent (List.mem_takeWhile_imp hb)
  have hfinal : ctx.Final
      (before ++ hang (indentation (lastLine before)) (ctx.inserted i t) ++ after) := by
    apply Spelled.append _ (.of_not_isBrace hafter)
    apply Spelled.append (.of_not_isBrace hbefore)
    exact Spelled.hang hindent (.of_not_isBrace hinserted)
  rw [dialogue, hpasses]
  exact eval_passesDialogue_succ.2 ⟨_, passes_token hrun hlf hfind hi hbefore hafter,
    (yields_passesDialogue hfinal.leaves passes).eval c⟩

theorem anew_eq_of_body {b : Code} {earlier : List Call} (hstore : ctx.store.ColonFree)
    (hfound : ctx.Found i) (hget : ctx.store.get i = .code b)
    (hbody : (ctx.body (ctx.memoAfter [] earlier) b.toRegion).1 = .ok t) :
    ctx.anew [] i = .ok t := by
  rw [body, fst_resolve hstore (Truthful.start.memoAfter earlier)] at hbody
  have hraw : ctx.rawText i = .ok b.body.dropFinalLf := by
    rw [rawText, hget]
    rfl
  have hsettles : ctx.Settles i t := (ctx.sound_anew []).settles hraw hbody
  have hunder : ctx.Under [] i := ⟨hfound, by simp⟩
  exact hunder.anew_eq_ok hstore hsettles

/-- Filling the placeholder of a code block with its header and its expanded body gives what the
expansion of the text gives. -/
theorem inject?_eq_resolve (ctx : Context) (hstore : ctx.store.ColonFree)
    (hpasses : 1 ≤ ctx.options.maxPasses) {b : Code} {i : ctx.store.Id}
    (hget : ctx.store.get i = .code b) (hfind : ctx.find? b.name = some i)
    {source relDir document : Text} (hlexed : .code b ∈ (lex source relDir document).blocks)
    (hname : ∀ x ∈ b.name, isBrace x = false) (hsource : ∀ x ∈ b.source, isBrace x = false)
    (hshown : ctx.options.outputSource = true → ctx.options.absoluteSources = true →
      ∀ x ∈ ctx.base.resolve b.source, isBrace x = false)
    {before after t : Text} (hbefore : ∀ x ∈ before, isBrace x = false)
    (hafter : ∀ x ∈ after, isBrace x = false) {earlier later : List Call}
    (hbody : (ctx.body (ctx.memoAfter [] earlier) b.toRegion).1 = .ok t)
    (ht : ∀ x ∈ t, isBrace x = false) :
    ∃ out, (ctx.resolve (ctx.memoAfter [] later) (before ++ placeholder b.name ++ after)).1 =
        .ok out ∧
      Patch.inject? (before ++ placeholder b.name ++ after) (placeholder b.name)
        (ctx.provenance (.code b) b.name ++ t) = some out := by
  have hisName : IsName b.name := isName_of_mem_lex hlexed
  have hi := anew_eq_of_body hstore ⟨_, hfind⟩ hget hbody
  have hinserted : ctx.inserted i t = ctx.provenance (.code b) b.name ++ t := by
    rw [inserted, hget]
    rfl
  have hrun : IsRun (space :: (b.name ++ [space])) := by
    refine ⟨List.cons_ne_nil _ _, ?_⟩
    simpa [or_imp, forall_and] using ⟨rfl, hname, rfl⟩
  have hlf : lf ∉ space :: (b.name ++ [space]) := by
    simpa [lf, space] using hisName.lf_notMem
  have hbraceless : ∀ x ∈ ctx.inserted i t, isBrace x = false := by
    rw [hinserted]
    intro x hx
    rcases List.mem_append.1 hx with hx | hx
    · exact not_isBrace_provenance (b := .code b) hsource hname hshown x hx
    · exact ht x hx
  rw [placeholder_eq_token]
  refine ⟨_, (fst_resolve hstore (Truthful.start.memoAfter later) _).trans
    (eval_dialogue_token hpasses hrun hlf (hisName.tokenName_eq.symm ▸ hfind) hi hbraceless hbefore
      hafter), ?_⟩
  have hcut : cut (Segment.token (space :: (b.name ++ [space]))).text
      (before ++ (Segment.token (space :: (b.name ++ [space]))).text ++ after) =
        some (before, after) := by
    apply cut_append_of_head_notMem
    exact fun h => by simpa [isBrace] using hbefore _ h
  rw [Patch.inject?, hcut, hinserted]
  rfl

theorem inject?_eq_resolve_nested :
    let b : Code := ⟨⟨"d.md", "x " ++ placeholder "b" ++ "\n", 1, 3⟩, "a"⟩
    .code b ∈ (lex "d.md" [] ("```x lit-type:code lit-name:a\nx " ++ placeholder "b" ++
        "\n```\n")).blocks ∧
      (nested.body (nested.memoAfter [] [.resolve (placeholder "b")]) b.toRegion).1 =
        .ok "x // Source: d.md\n// Anchor: b\n1" ∧
      ∃ out, (nested.resolve (nested.memoAfter [] [.body b.toRegion])
            ("p\n\t" ++ placeholder b.name ++ " q\nz")).1 = .ok out ∧
        Patch.inject? ("p\n\t" ++ placeholder b.name ++ " q\nz") (placeholder b.name)
          (nested.provenance (.code b) b.name ++ "x // Source: d.md\n// Anchor: b\n1") =
            some out := by
  intro b
  have hlexed : .code b ∈ (lex "d.md" [] ("```x lit-type:code lit-name:a\nx " ++ placeholder "b" ++
      "\n```\n")).blocks := by
    decide +kernel
  have hbody : (nested.body (nested.memoAfter [] [.resolve (placeholder "b")]) b.toRegion).1 =
      .ok "x // Source: d.md\n// Anchor: b\n1" := by
    decide +kernel
  refine ⟨hlexed, hbody, inject?_eq_resolve nested (by decide) (by decide) (i := ⟨0, by decide⟩)
    ?_ ?_ hlexed ?_ ?_ (fun _ h => by cases h) ?_ ?_ hbody ?_⟩
  all_goals decide +kernel

def colliding : Context where
  store := ⟨[.code ⟨⟨"p:q", placeholder "q:r" ++ "\n", 1, 3⟩, "r"⟩,
    .code ⟨⟨"p", "1\n", 5, 7⟩, "q:r"⟩]⟩
  options := { Options.defaults with outputSource := false }
  base := ⟨"/"⟩
  fetch _ := .error (.tagNotFound [] [])

/-- A block may expand while the text with its placeholder does not: where the header brings in
braces of the directory, and where a name with a colon gives two blocks the same key. -/
theorem resolve_unlike_inject? :
    (let b : Code := ⟨⟨"d.md", "x\n", 1, 3⟩, "a"⟩
     .code b ∈ (lex "d.md" [] "```x lit-type:code lit-name:a\nx\n```\n").blocks ∧
      looping.find? b.name = some ⟨0, by decide⟩ ∧ (looping.body [] b.toRegion).1 = .ok "x" ∧
      Patch.inject? (placeholder "a") (placeholder "a") (looping.provenance (.code b) "a" ++ "x") =
        some ("// Source: /" ++ placeholder "a" ++ "/d.md\n// Anchor: a\nx") ∧
      ∀ out, (looping.resolve [] (placeholder "a")).1 ≠ .ok out) ∧
    let b : Code := ⟨⟨"p:q", placeholder "q:r" ++ "\n", 1, 3⟩, "r"⟩
    .code b ∈ (lex "p:q" [] ("```x lit-type:code lit-name:r\n" ++ placeholder "q:r" ++
        "\n```\n")).blocks ∧
      colliding.find? b.name = some ⟨0, by decide⟩ ∧ (colliding.body [] b.toRegion).1 = .ok "1" ∧
      Patch.inject? (placeholder "r") (placeholder "r") (colliding.provenance (.code b) "r" ++ "1") =
        some "1" ∧
      ∀ out, (colliding.resolve [] (placeholder "r")).1 ≠ .ok out := by
  have hlimit : (looping.resolve [] (placeholder "a")).1 =
      .error (.limit 1 ("// Source: /// Source: /" ++ placeholder "a" ++
        "/d.md\n// Anchor: a\nx/d.md\n// Anchor: a\nx")) := by
    decide +kernel
  have hcyclic : (colliding.resolve [] (placeholder "r")).1 = .error (.cyclic ["r", "q:r"]) := by
    decide +kernel
  refine ⟨⟨by decide +kernel, by decide +kernel, by decide +kernel, by decide +kernel, ?_⟩,
    by decide +kernel, by decide +kernel, by decide +kernel, by decide +kernel, ?_⟩
  · intro out
    rw [hlimit]
    simp
  · intro out
    rw [hcyclic]
    simp

end Expansion.Context

end Tangle
