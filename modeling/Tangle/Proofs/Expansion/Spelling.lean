import Tangle.Proofs.Expansion.Remainder

namespace Tangle.Expansion

open Text

def Segment.isStray : Segment → Bool
  | byte b => isBrace b
  | token _ => false

def WellBraced (t : Text) : Prop :=
  ∀ line ∈ split lf t, ∀ segment ∈ segments line, segment.isStray = false

instance (t : Text) : Decidable (WellBraced t) := inferInstanceAs (Decidable (∀ _ ∈ _, _))

theorem WellBraced.dropFinalLf {t : Text} (h : WellBraced t) : WellBraced t.dropFinalLf := by
  unfold Text.dropFinalLf
  split
  next hend =>
    rw [endsWith, List.isSuffixOf_iff_suffix] at hend
    obtain ⟨u, rfl⟩ := hend
    intro line hline
    rw [List.dropLast_concat] at hline
    apply h
    rw [split_append_cons]
    exact List.mem_append_left _ hline
  next => exact h

/-- The text is spelled with bytes other than braces and with placeholders whose runs are in `P`. -/
inductive Spelled (P : Text → Prop) : Text → Prop
  | nil : Spelled P []
  | byte {b : UInt8} {t : Text} (hb : isBrace b = false) (ht : Spelled P t) : Spelled P (b :: t)
  | token {run t : Text} (hrun : IsRun run) (hlf : lf ∉ run) (hP : P run) (ht : Spelled P t) :
    Spelled P ((Segment.token run).text ++ t)

namespace Spelled

variable {P : Text → Prop} {t u : Text}

theorem of_not_isBrace (h : ∀ b ∈ t, isBrace b = false) : Spelled P t := by
  induction t with
  | nil => exact .nil
  | cons b t ih =>
    obtain ⟨hb, ht⟩ := List.forall_mem_cons.1 h
    exact .byte hb (ih ht)

theorem append (ht : Spelled P t) (hu : Spelled P u) : Spelled P (t ++ u) := by
  induction ht with
  | nil => exact hu
  | byte hb _ ih => exact .byte hb ih
  | token hrun hlf hP _ ih =>
    rw [List.append_assoc]
    exact .token hrun hlf hP ih

theorem hang {indent : Text} (h : ∀ b ∈ indent, isBrace b = false) (ht : Spelled P t) :
    Spelled P (hang indent t) := by
  induction ht with
  | nil => exact .nil
  | @byte b t hb _ ih =>
    rw [← List.singleton_append, hang_append]
    refine append (of_not_isBrace ?_) ih
    by_cases hlf : b = lf
    · simpa [Text.hang, hlf] using ⟨hlf ▸ hb, h⟩
    · simpa [Text.hang, hlf] using hb
  | token hrun hlf hP _ ih =>
    rw [hang_append, hang_eq_self indent (Context.lf_notMem_token hlf)]
    exact .token hrun hlf hP ih

theorem join {lines : List Text} (h : ∀ line ∈ lines, Spelled P line) :
    Spelled P (join [lf] lines) := by
  induction lines with
  | nil => exact .nil
  | cons line lines ih =>
    obtain ⟨hline, hlines⟩ := List.forall_mem_cons.1 h
    cases lines with
    | nil => exact hline
    | cons second lines =>
      rw [join_cons _ _ (List.cons_ne_nil second lines)]
      exact (hline.append (of_not_isBrace (List.forall_mem_singleton.2 rfl))).append (ih hlines)

theorem of_mem_split (h : Spelled P t) : ∀ line ∈ split lf t, Spelled P line := by
  -- What is spelled first belongs to the first line, unless it is the end of that line.
  have hfirst : ∀ {w t : Text}, lf ∉ w → (∀ part, Spelled P part → Spelled P (w ++ part)) →
      (∀ line ∈ split lf t, Spelled P line) → ∀ line ∈ split lf (w ++ t), Spelled P line := by
    intro w t hw hspelled ht line hline
    obtain ⟨part, parts, hsplit, happend⟩ := exists_split_append hw t
    rw [happend] at hline
    rw [hsplit] at ht
    rcases List.mem_cons.1 hline with rfl | hline
    · exact hspelled part (ht part (List.mem_cons_self ..))
    · exact ht line (List.mem_cons_of_mem _ hline)
  induction h with
  | nil => simpa [split] using Spelled.nil
  | @byte b t hb _ ih =>
    by_cases hlf : b = lf
    · subst hlf
      intro line hline
      rw [← List.nil_append (lf :: t), split_append_cons] at hline
      rcases List.mem_append.1 hline with hline | hline
      · rw [List.mem_singleton.1 hline]
        exact .nil
      · exact ih line hline
    · exact hfirst (w := [b]) (by simpa using Ne.symm hlf) (fun _ hpart => .byte hb hpart) ih
  | token hrun hlf hP _ ih =>
    exact hfirst (Context.lf_notMem_token hlf) (fun _ hpart => .token hrun hlf hP hpart) ih

theorem of_mem_segments (h : Spelled P t) :
    ∀ segment ∈ segments t, segment.isStray = false ∧ ∀ run, segment = .token run → P run := by
  induction h with
  | nil => simp [segments]
  | byte hb _ ih =>
    rw [segments_cons_of_not_isBrace hb]
    exact List.forall_mem_cons.2 ⟨⟨hb, by simp⟩, ih⟩
  | token hrun hlf hP _ ih =>
    rw [segments_of_token? (token?_eq_some_iff.2 ⟨rfl, hrun⟩)]
    refine List.forall_mem_cons.2 ⟨⟨rfl, ?_⟩, ih⟩
    rintro _ ⟨rfl⟩
    exact hP

theorem wellBraced (h : Spelled P t) : WellBraced t := by
  intro line hline segment hsegment
  exact ((h.of_mem_split line hline).of_mem_segments segment hsegment).1

end Spelled

end Tangle.Expansion
