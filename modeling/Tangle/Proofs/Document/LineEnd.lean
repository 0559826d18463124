import Tangle.Proofs.Document.Outline

namespace Tangle

namespace Text

def crlfEnds (t : Text) : Text := t.flatMap fun b => if b = lf then [cr, lf] else [b]

theorem crlfEnds_append (t u : Text) : crlfEnds (t ++ u) = crlfEnds t ++ crlfEnds u := by
  simp [crlfEnds]

theorem crlfEnds_eq_self {t : Text} (h : lf ∉ t) : crlfEnds t = t := by
  induction t with
  | nil => rfl
  | cons b t ih =>
    simp only [List.mem_cons, not_or] at h
    rw [← List.singleton_append, crlfEnds_append, ih h.2]
    simp [crlfEnds, Ne.symm h.1]

theorem crlfEnds_append_cons {line : Text} (h : lf ∉ line) (t : Text) :
    crlfEnds (line ++ lf :: t) = line ++ [cr] ++ lf :: crlfEnds t := by
  rw [crlfEnds_append, crlfEnds_eq_self h]
  simp [crlfEnds]

theorem rawLines_crlfEnds (t : Text) : rawLines (crlfEnds t) = (rawLines t).map crlfEnds := by
  induction t using lines_induction with
  | nil => rfl
  | last line hne hline =>
    rw [crlfEnds_eq_self hline, rawLines_eq_singleton hne hline, List.map_singleton,
      crlfEnds_eq_self hline]
  | cons line t hline ih =>
    have hne : lf ≠ cr := by decide
    have hcr : lf ∉ line ++ [cr] := by simp [hline, hne]
    rw [crlfEnds_append_cons hline, rawLines_append_cons hcr, rawLines_append_cons hline, ih,
      List.map_cons, crlfEnds_append_cons hline]
    rfl

theorem dropLineEnd_crlfEnds {t raw : Text} (h : raw ∈ rawLines t) :
    (crlfEnds raw).dropLineEnd = raw.dropLineEnd := by
  induction t using lines_induction with
  | nil => cases h
  | last line hne hline =>
    rw [rawLines_eq_singleton hne hline] at h
    rw [List.mem_singleton.1 h, crlfEnds_eq_self hline]
  | cons line t hline ih =>
    rw [rawLines_append_cons hline] at h
    rcases List.mem_cons.1 h with rfl | h
    · rw [crlfEnds_append_cons hline]
      simp [crlfEnds, dropLineEnd, trimEndWhile, isLineEnd]
    · exact ih h

end Text

open Text

def Lexed.mapSpans (f : Nat → Nat) (found : Lexed) : Lexed :=
  { found with spans := found.spans.map fun s => ⟨f s.start, f s.stop⟩ }

namespace Lexed

variable {f : Nat → Nat}

theorem mapSpans_append (a b : Lexed) : (a ++ b).mapSpans f = a.mapSpans f ++ b.mapSpans f := by
  change mapSpans f (append a b) = append (mapSpans f a) (mapSpans f b)
  simp [mapSpans, append]

theorem mapSpans_eq_self {found : Lexed} (h : found.spans = []) : found.mapSpans f = found := by
  cases found
  simp_all [mapSpans]

end Lexed

namespace Lexer

def State.mapOffset (f : Nat → Nat) : State → State
  | outside => outside
  | fence opening line offset body => fence opening line (f offset) body
  | custom name line offset body => custom name line (f offset) body

theorem step_mapOffset {raw raw' : Text} {offset : Nat} {f : Nat → Nat}
    (hline : raw'.dropLineEnd = raw.dropLineEnd)
    (hlength : f (offset + raw.length) = f offset + raw'.length) (o : Origin) (state : State)
    (n : Nat) :
    step o (state.mapOffset f) n (f offset) raw' =
      ((step o state n offset raw).1.mapOffset f, (step o state n offset raw).2.mapSpans f) := by
  cases state with
  | outside =>
    simp only [step, State.mapOffset, hline]
    split
    next => rfl
    next =>
      split
      next => rfl
      next => split <;> rfl
  | fence opening start startByte body =>
    simp only [step, State.mapOffset, hline]
    split
    next =>
      split
      next =>
        simp only [Lexed.mapSpans_append, Lexed.mapSpans_eq_self (spans_literate ..)]
        simp [Lexed.mapSpans, Lexed.span, hlength]
      next => simp [Lexed.mapSpans, Lexed.span, hlength]
    next => rfl
  | custom name start startByte body =>
    simp only [step, State.mapOffset, hline]
    split
    next =>
      rw [Lexed.mapSpans_append]
      simp [Lexed.mapSpans, Lexed.span, Lexed.block, hlength]
    next => rfl

theorem finish_mapOffset (o : Origin) (f : Nat → Nat) (state : State) :
    finish o (state.mapOffset f) = (finish o state).mapSpans f := by
  cases state <;> rfl

def crlfOffset (text : Text) (offset : Nat) : Nat := (crlfEnds (text.take offset)).length

theorem crlfOffset_length {text before rest : Text} (h : text = before ++ rest) :
    crlfOffset text before.length = (crlfEnds before).length := by
  rw [crlfOffset, h, List.take_left]

theorem run_crlfEnds {text before : Text} {lines : List Text} (htext : text = before ++ lines.flatten)
    (hlines : ∀ raw ∈ lines, (crlfEnds raw).dropLineEnd = raw.dropLineEnd) (o : Origin)
    (state : State) (n : Nat) :
    run o (state.mapOffset (crlfOffset text)) n (crlfEnds before).length (lines.map crlfEnds) =
      (run o state n before.length lines).mapSpans (crlfOffset text) := by
  -- Both runs have read `before`, each at the offset that its own form of it has.
  induction lines generalizing before state n with
  | nil => exact finish_mapOffset ..
  | cons raw rest ih =>
    obtain ⟨hraw, hrest⟩ := List.forall_mem_cons.1 hlines
    have htext' : text = before ++ raw ++ rest.flatten := by simpa using htext
    have hlength : crlfOffset text (before.length + raw.length) =
        crlfOffset text before.length + (crlfEnds raw).length := by
      rw [← List.length_append, crlfOffset_length htext', crlfOffset_length htext, crlfEnds_append,
        List.length_append]
    have hrun := ih htext' hrest (step o state n before.length raw).1 (n + 1)
    rw [crlfEnds_append, List.length_append, List.length_append] at hrun
    rw [List.map_cons, run, run, ← crlfOffset_length htext, step_mapOffset hraw hlength]
    dsimp only
    rw [crlfOffset_length htext, hrun, Lexed.mapSpans_append]

end Lexer

open Lexer in
/-- A document holds the same blocks and problems whichever way its lines end, and its regions are
the same, each with the bytes that its lines then have. -/
theorem lex_crlfEnds (source relDir text : Text) :
    (lex source relDir text.crlfEnds).blocks = (lex source relDir text).blocks ∧
      (lex source relDir text.crlfEnds).diagnostics = (lex source relDir text).diagnostics ∧
      (lex source relDir text.crlfEnds).spans = (lex source relDir text).spans.map fun s =>
        ⟨(crlfEnds (text.take s.start)).length, (crlfEnds (text.take s.stop)).length⟩ := by
  have hlex : lex source relDir text.crlfEnds =
      (lex source relDir text).mapSpans (crlfOffset text) := by
    have htext : text = [] ++ text.rawLines.flatten := (flatten_rawLines text).symm
    have hrun := run_crlfEnds htext (fun _ => dropLineEnd_crlfEnds) ⟨source, relDir⟩ .outside 1
    rwa [← rawLines_crlfEnds] at hrun
  rw [hlex]
  exact ⟨rfl, rfl, rfl⟩

end Tangle
