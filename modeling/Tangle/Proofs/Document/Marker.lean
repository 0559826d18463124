import Tangle.Proofs.Document.Edit
import Tangle.Proofs.Text.Parts

namespace Tangle

namespace Text

def isInk (b : UInt8) : Bool := 32 < b && b < 128

def Inkless (t : Text) : Prop := ∀ b ∈ t, isInk b = false

theorem Inkless.append {t u : Text} (ht : t.Inkless) (hu : u.Inkless) : (t ++ u).Inkless := by
  intro b hb
  rcases List.mem_append.1 hb with hb | hb
  · exact ht b hb
  · exact hu b hb

theorem inkless_of_isLineEnd {t : Text} (h : ∀ b ∈ t, isLineEnd b = true) : t.Inkless := by
  intro b hb
  have hend := h b hb
  simp only [isLineEnd, Bool.or_eq_true, beq_iff_eq] at hend
  rcases hend with rfl | rfl <;> rfl

theorem inkless_of_isSpace {t : Text} (h : ∀ b ∈ t, isSpace b = true) : t.Inkless := by
  intro b hb
  have hspace := h b hb
  simp only [isSpace, Bool.or_eq_true, beq_iff_eq, or_assoc] at hspace
  rcases hspace with rfl | rfl | rfl | rfl | rfl <;> rfl

section Blank

theorem isInk_of_isBlank1 (a : UInt8) (h : isBlank1 a = true) : isInk a = false := by
  simp only [isBlank1, Bool.or_eq_true, Bool.and_eq_true, decide_eq_true_eq, beq_iff_eq] at h
  simp only [isInk, Bool.and_eq_false_imp, decide_eq_true_eq, decide_eq_false_iff_not]
  grind

theorem isInk_of_isBlank2 (a b : UInt8) (h : isBlank2 a b = true) :
    isInk a = false ∧ isInk b = false := by
  simp only [isBlank2, Bool.and_eq_true, Bool.or_eq_true, beq_iff_eq] at h
  obtain ⟨rfl, rfl | rfl⟩ := h <;> exact ⟨rfl, rfl⟩

theorem isInk_of_isBlank3 (a b c : UInt8) (h : isBlank3 a b c = true) :
    isInk a = false ∧ isInk b = false ∧ isInk c = false := by
  have hhigh : ∀ c : UInt8, 128 ≤ c → isInk c = false := by
    intro c hc
    simp only [isInk, Bool.and_eq_false_imp, decide_eq_true_eq, decide_eq_false_iff_not]
    grind
  simp only [isBlank3, Bool.and_eq_true, Bool.or_eq_true, beq_iff_eq, decide_eq_true_eq] at h
  rcases h with ((⟨⟨rfl, rfl⟩, rfl⟩ | ⟨⟨rfl, rfl⟩, h⟩) | ⟨⟨rfl, rfl⟩, rfl⟩) | ⟨⟨rfl, rfl⟩, rfl⟩
  · exact ⟨rfl, rfl, rfl⟩
  · refine ⟨rfl, rfl, hhigh c ?_⟩
    grind
  · exact ⟨rfl, rfl, rfl⟩
  · exact ⟨rfl, rfl, rfl⟩

theorem mem_dropForms {one : UInt8 → Bool} {two : UInt8 → UInt8 → Bool}
    {three : UInt8 → UInt8 → UInt8 → Bool} {P : UInt8 → Prop} (hone : ∀ a, one a = true → P a)
    (htwo : ∀ a b, two a b = true → P a ∧ P b)
    (hthree : ∀ a b c, three a b c = true → P a ∧ P b ∧ P c) {t : Text} {x : UInt8} (h : x ∈ t) :
    P x ∨ x ∈ dropForms one two three t := by
  fun_induction dropForms one two three t with
  | case1 => exact .inr h
  | case2 a t ha ih =>
    rcases List.mem_cons.1 h with rfl | h
    · exact .inl (hone _ ha)
    · exact ih h
  | case3 a ha => exact .inr h
  | case4 a ha b t hab ih =>
    obtain ⟨hPa, hPb⟩ := htwo a b hab
    simp only [List.mem_cons] at h
    rcases h with rfl | rfl | h
    · exact .inl hPa
    · exact .inl hPb
    · exact ih h
  | case5 a ha b hab => exact .inr h
  | case6 a ha b hab c t habc ih =>
    obtain ⟨hPa, hPb, hPc⟩ := hthree a b c habc
    simp only [List.mem_cons] at h
    rcases h with rfl | rfl | rfl | h
    · exact .inl hPa
    · exact .inl hPb
    · exact .inl hPc
    · exact ih h
  | case7 a ha b hab c t habc => exact .inr h

theorem inkless_of_trim {t : Text} (h : t.trim = []) : t.Inkless := by
  have hend : dropForms isBlank1 (fun b a => isBlank2 a b) (fun c b a => isBlank3 a b c)
      (dropForms isBlank1 isBlank2 isBlank3 t).reverse = [] := by
    simpa [trim, trimEnd, trimStart] using h
  have hone := isInk_of_isBlank1
  have htwo := isInk_of_isBlank2
  have hthree := isInk_of_isBlank3
  intro b hb
  rcases mem_dropForms hone htwo hthree hb with hink | hleft
  · exact hink
  · have hlast := mem_dropForms hone (fun b a h => (htwo a b h).symm)
      (fun c b a h => ⟨(hthree a b c h).2.2, (hthree a b c h).2.1, (hthree a b c h).1⟩)
      (List.mem_reverse.2 hleft)
    rw [hend] at hlast
    simpa using hlast

end Blank

section Read

variable {lead sep t w : Text}

theorem after?_append_inkless (hlead : ∀ b ∈ lead, isInk b = true) (hw : w.Inkless) :
    after? lead (t ++ w) = (after? lead t).map (· ++ w) := by
  induction lead generalizing t with
  | nil => simp
  | cons a lead ih =>
    have ha := hlead a (List.mem_cons_self ..)
    cases t with
    | nil =>
      cases w with
      | nil => rfl
      | cons b w =>
        have hb := hw b (List.mem_cons_self ..)
        have hne : a ≠ b := by
          rintro rfl
          simp [ha] at hb
        simp [after?, hne]
    | cons b t =>
      simp only [List.cons_append, after?]
      split
      next => exact ih fun b hb => hlead b (List.mem_cons_of_mem _ hb)
      next => rfl

theorem startsWith_eq_isSome (t lead : Text) : t.startsWith lead = (after? lead t).isSome := by
  induction lead generalizing t with
  | nil => simp [startsWith]
  | cons a lead ih =>
    cases t with
    | nil => rfl
    | cons b t =>
      simp only [startsWith, List.isPrefixOf, after?] at ih ⊢
      by_cases h : a = b
      · simp [h, ← ih]
      · simp [h]

theorem after?_isSome : (after? lead t).isSome = true ↔ lead <+: t := by
  rw [← startsWith_eq_isSome, startsWith, List.isPrefixOf_iff_prefix]

theorem cut_append_self (hne : sep ≠ []) (rest : Text) :
    cut sep (sep ++ rest) = some ([], rest) := by
  obtain ⟨b, sep, rfl⟩ := List.exists_cons_of_ne_nil hne
  have hfirst := after?_append (b :: sep) rest
  rw [List.cons_append] at hfirst ⊢
  simp [cut, hfirst]

theorem cut_append_cons {b : UInt8} (hne : sep ≠ []) (hb : b ∉ sep) (ht : ¬ sep <:+: t)
    (rest : Text) :
    cut sep (t ++ b :: rest) = (cut sep rest).map fun (before, after) => (t ++ b :: before, after) := by
  induction t with
  | nil =>
    have hnone : after? sep (b :: rest) = none := by
      rw [← Option.not_isSome_iff_eq_none, after?_isSome]
      intro h
      exact hne (List.prefix_nil.1 (prefix_of_prefix_append_cons hb h))
    simp [cut, hnone]
  | cons a t ih =>
    have hnone : after? sep (a :: (t ++ b :: rest)) = none := by
      rw [← Option.not_isSome_iff_eq_none, after?_isSome, ← List.cons_append]
      exact fun h => ht (prefix_of_prefix_append_cons hb h).isInfix
    have hrest := ih fun h => ht (h.trans (List.suffix_cons a t).isInfix)
    simp only [List.cons_append, cut, hnone, hrest, Option.map_map]
    rfl

theorem cut_of_inkless (hne : sep ≠ []) (hsep : ∀ b ∈ sep, isInk b = true) (hw : w.Inkless) :
    cut sep w = none := by
  rw [← Option.not_isSome_iff_eq_none]
  intro h
  obtain ⟨b, rest, rfl⟩ := List.exists_cons_of_ne_nil hne
  have hb := hw b ((contains_iff_isInfix.1 h).subset (List.mem_cons_self ..))
  simp [hsep b (List.mem_cons_self ..)] at hb

theorem cut_append_inkless (hne : sep ≠ []) (hsep : ∀ b ∈ sep, isInk b = true) (hw : w.Inkless) :
    cut sep (t ++ w) = (cut sep t).map fun (before, rest) => (before, rest ++ w) := by
  induction t with
  | nil => simpa [cut, hne] using cut_of_inkless hne hsep hw
  | cons b t ih =>
    simp only [List.cons_append, cut]
    rw [← List.cons_append, after?_append_inkless hsep hw]
    cases after? sep (b :: t) with
    | some rest => rfl
    | none =>
      simp only [Option.map_none, ih, Option.map_map]
      rfl

theorem cutByte_append_inkless {b : UInt8} (hb : isInk b = true) (hw : w.Inkless) :
    cutByte b (t ++ w) = (cutByte b t).map fun (before, rest) => (before, rest ++ w) := by
  induction t with
  | nil =>
    induction w with
    | nil => rfl
    | cons a w ih =>
      have ha := hw a (List.mem_cons_self ..)
      have hne : a ≠ b := by
        rintro rfl
        simp [hb] at ha
      have hrest := ih fun c hc => hw c (List.mem_cons_of_mem _ hc)
      simp only [List.nil_append, cutByte, Option.map_none] at hrest ⊢
      simp [hne, hrest]
  | cons a t ih =>
    simp only [List.cons_append, cutByte]
    split
    next => rfl
    next =>
      simp only [ih, Option.map_map]
      rfl

end Read

end Text

open Text

namespace Marker

variable {word t w line : Text}

theorem word?_append_inkless (hne : word ≠ []) (hword : ∀ b ∈ word, isInk b = true)
    (hw : w.Inkless) : word? word (t ++ w) = (word? word t).map (· ++ w) := by
  unfold word?
  rw [List.dropWhile_append]
  split
  next h =>
    have hdrop : Inkless (w.dropWhile isSpace) := fun b hb =>
      hw b ((List.dropWhile_sublist _).subset hb)
    rw [List.isEmpty_iff.1 h, ← List.nil_append (w.dropWhile isSpace),
      after?_append_inkless hword hdrop]
    obtain ⟨b, word, rfl⟩ := List.exists_cons_of_ne_nil hne
    rfl
  next => exact after?_append_inkless hword hw

theorem lastField?_of_inkless (hw : w.Inkless) : lastField? w = none := by
  have hclosing : ∀ b ∈ closing, isInk b = true := by decide +kernel
  unfold lastField?
  split
  next => rfl
  next b rest h =>
    have hrest : Inkless (b :: rest) := fun c hc =>
      hw c ((List.dropWhile_sublist _).subset (h ▸ hc))
    have hafter : after? closing (b :: rest) = none := by
      rw [← List.nil_append (b :: rest), after?_append_inkless hclosing hrest]
      rfl
    rw [cut_of_inkless (by decide) hclosing fun c hc => hrest c (List.mem_cons_of_mem _ hc), hafter]
    simp

theorem lastField?_append_inkless (hw : w.Inkless) :
    lastField? (t ++ w) = (lastField? t).map fun (field, rest) => (field, rest ++ w) := by
  have hclosing : ∀ b ∈ closing, isInk b = true := by decide +kernel
  cases ht : t.dropWhile isSpace with
  | nil =>
    have hspace : t.Inkless := inkless_of_isSpace (by simpa using ht)
    rw [lastField?_of_inkless hspace, lastField?_of_inkless (hspace.append hw)]
    rfl
  | cons b rest =>
    have hdrop : (t ++ w).dropWhile isSpace = b :: (rest ++ w) := by
      simp [List.dropWhile_append, ht]
    have htake : (t ++ w).takeWhile isSpace = t.takeWhile isSpace := by
      have hlength := congrArg List.length (List.takeWhile_append_dropWhile (p := isSpace) (l := t))
      rw [ht, List.length_append, List.length_cons] at hlength
      rw [List.takeWhile_append, if_neg (by omega)]
    simp only [lastField?, hdrop, ht, htake]
    rw [cut_append_inkless (by decide) hclosing hw, ← List.cons_append,
      after?_append_inkless hclosing hw]
    cases cut closing rest with
    | some r => rfl
    | none =>
      cases (t.takeWhile isSpace).getLast? <;> cases after? closing (b :: rest) <;> rfl

theorem customName?_append_inkless (hw : w.Inkless) : customName? (t ++ w) = customName? t := by
  have hopening : ∀ b ∈ opening, isInk b = true := by decide +kernel
  have hword : ∀ b ∈ ofString "block:", isInk b = true := by decide +kernel
  simp only [customName?, after?_append_inkless hopening hw]
  cases after? opening t with
  | none => rfl
  | some u =>
    simp only [Option.map_some, Option.bind_eq_bind, Option.bind_some]
    rw [word?_append_inkless (by decide) hword hw]
    cases word? "block:" u with
    | none => rfl
    | some v =>
      simp only [Option.map_some, Option.bind_some, lastField?_append_inkless hw]
      cases lastField? v <;> rfl

theorem pullRequest?_append_inkless (hw : w.Inkless) :
    pullRequest? (t ++ w) = pullRequest? t := by
  have hopening : ∀ b ∈ opening, isInk b = true := by decide +kernel
  have hpull : ∀ b ∈ ofString "pull_from:", isInk b = true := by decide +kernel
  have hblock : ∀ b ∈ ofString "block:", isInk b = true := by decide +kernel
  simp only [pullRequest?, after?_append_inkless hopening hw]
  cases after? opening t with
  | none => rfl
  | some u =>
    simp only [Option.map_some, Option.bind_eq_bind, Option.bind_some]
    rw [word?_append_inkless (by decide) hpull hw]
    cases word? "pull_from:" u with
    | none => rfl
    | some u =>
      simp only [Option.map_some, Option.bind_some]
      rw [cutByte_append_inkless (by decide) hw]
      cases cutByte comma u with
      | none => rfl
      | some r =>
        simp only [Option.map_some, Option.bind_some]
        cases field? r.1 with
        | none => rfl
        | some path =>
          simp only [Option.bind_some]
          rw [word?_append_inkless (by decide) hblock hw]
          cases word? "block:" r.2 with
          | none => rfl
          | some u =>
            simp only [Option.map_some, Option.bind_some, lastField?_append_inkless hw]
            cases lastField? u with
            | none => rfl
            | some f =>
              have hlength : (t ++ w).length - (f.2 ++ w).length = t.length - f.2.length := by
                rw [List.length_append, List.length_append]
                omega
              simp only [Option.map_some, Option.bind_some, hlength,
                List.take_append_of_le_length (Nat.sub_le ..)]

theorem suffix_of_word? {rest : Text} (h : word? word t = some rest) : rest <:+ t := by
  have hdrop : word ++ rest <:+ t := by
    rw [← after?_eq_some h]
    exact List.dropWhile_suffix _
  exact (List.suffix_append word rest).trans hdrop

theorem of_lastField?_eq_some {field rest : Text} (h : lastField? t = some (field, rest)) :
    field ⊆ t ∧ rest <:+ t := by
  unfold lastField? at h
  split at h
  next => simp at h
  next b tail hdrop =>
    have htail : b :: tail <:+ t := hdrop ▸ List.dropWhile_suffix _
    split at h
    next before after hcut =>
      simp only [Option.some.injEq, Prod.mk.injEq] at h
      obtain ⟨rfl, rfl⟩ := h
      have hcut := cut_eq_some hcut
      constructor
      · have hbefore : b :: before ⊆ b :: tail := by
          rw [hcut, List.append_assoc, ← List.cons_append]
          exact List.subset_append_left ..
        refine List.Subset.trans ?_ htail.subset
        exact List.Subset.trans (trimEndWhile_isPrefix _ _).subset hbefore
      · refine List.IsSuffix.trans ?_ htail
        rw [hcut, ← List.cons_append]
        exact List.suffix_append ..
    next =>
      split at h
      next s after hlast hafter =>
        simp only [Option.some.injEq, Prod.mk.injEq] at h
        obtain ⟨rfl, rfl⟩ := h
        constructor
        · exact List.cons_subset.2
            ⟨(List.takeWhile_prefix _).subset (List.mem_of_getLast? hlast), List.nil_subset _⟩
        · rw [after?_eq_some hafter] at htail
          exact (List.suffix_append ..).trans htail
      next => simp at h

theorem of_pullRequest?_eq_some {q : PullRequest} (h : pullRequest? line = some q) :
    q.marker <+: line ∧ opening <+: q.marker ∧ q.path ⊆ line ∧ q.name ⊆ line := by
  simp only [pullRequest?, Option.bind_eq_bind, Option.bind_eq_some_iff] at h
  obtain ⟨t₁, hopening, t₂, hpull, ⟨pathField, t₃⟩, hcut, path, hpath, t₄, hblock, ⟨name, rest⟩,
    hlast, hq⟩ := h
  obtain rfl := Option.some.inj hq
  obtain ⟨hname, hrest⟩ := of_lastField?_eq_some hlast
  have hline := after?_eq_some hopening
  have hcut := cutByte_eq_some hcut
  have h₂ : t₂ <:+ line := by
    rw [hline]
    exact (suffix_of_word? hpull).trans (List.suffix_append ..)
  have h₄ : t₄ <:+ t₁ := by
    refine (suffix_of_word? hblock).trans (List.IsSuffix.trans ?_ (suffix_of_word? hpull))
    rw [hcut]
    exact (List.suffix_cons comma t₃).trans (List.suffix_append ..)
  obtain ⟨lead, hlead⟩ := hrest.trans h₄
  have hmarker : line.take (line.length - rest.length) = opening ++ lead := by
    have : line = (opening ++ lead) ++ rest := by rw [hline, ← hlead, List.append_assoc]
    rw [this, List.length_append, Nat.add_sub_cancel, List.take_left]
  refine ⟨List.take_prefix .., ?_, ?_, ?_⟩
  · rw [hmarker]
    exact List.prefix_append ..
  · refine List.Subset.trans (List.Subset.trans (field?_subset hpath) ?_) h₂.subset
    rw [hcut]
    exact List.subset_append_left ..
  · refine List.Subset.trans (List.Subset.trans hname h₄.subset) ?_
    rw [hline]
    exact List.subset_append_right ..

end Marker

namespace Lexer

theorem pull?_eq_none_iff {o : Origin} {n : Nat} {line : Text} :
    pull? o n line = none ↔
      ∀ q, Marker.pullRequest? line = some q → line.contains Marker.processedWords = true := by
  unfold pull?
  split
  next h => simp [h]
  next q h => split <;> simp_all

theorem pull?_eq_some_iff {o : Origin} {n : Nat} {line : Text} {p : Pull} :
    pull? o n line = some p ↔
      Marker.pullRequest? line = some ⟨p.path, p.name, p.marker⟩ ∧
        line.contains Marker.processedWords = false ∧ p.toRegion = ⟨o.source, [], n, n⟩ := by
  obtain ⟨region, path, name, marker⟩ := p
  unfold pull?
  split
  next h => simp [h]
  next q h =>
    obtain ⟨path', name', marker'⟩ := q
    rw [h]
    split
    next hwords => simp [hwords]
    next hwords =>
      simp only [Option.some.injEq, Pull.mk.injEq, Marker.PullRequest.mk.injEq, hwords, true_and]
      constructor
      · rintro ⟨rfl, rfl, rfl, rfl⟩
        exact ⟨⟨rfl, rfl, rfl⟩, rfl⟩
      · rintro ⟨⟨rfl, rfl, rfl⟩, rfl⟩
        exact ⟨rfl, rfl, rfl, rfl⟩

/-- A line that opens no region and asks for nothing that is not there yet. -/
def Silent (raw : Text) : Prop :=
  opens? raw = none ∧ ∀ q, Marker.pullRequest? raw.dropLineEnd = some q →
    raw.dropLineEnd.contains Marker.processedWords = true

section Silent

variable {raw tail t : Text}

theorem Silent.of_dropLineEnd_eq (h : Silent raw) (heq : t.dropLineEnd = raw.dropLineEnd) :
    Silent t := by
  unfold Silent opens? at h ⊢
  rwa [heq]

theorem Silent.found (h : Silent raw) (o : Origin) (before : List Text) :
    (Part.line raw h.1).found o before = .empty := by
  simp only [Part.found, pull?_eq_none_iff.2 h.2]

theorem Silent.step (h : Silent raw) (o : Origin) (n offset : Nat) :
    step o .outside n offset raw = (.outside, .empty) := by
  have hopens := h.1
  simp only [opens?] at hopens
  split at hopens
  next => simp at hopens
  next hfence =>
    rw [Option.map_eq_none_iff] at hopens
    simp only [Lexer.step, hfence, hopens, pull?_eq_none_iff.2 h.2]
    rfl

theorem isFence_append_inkless (h : tail.Inkless) : isFence (raw ++ tail) = isFence raw := by
  have hmark : ∀ b ∈ fenceMark, isInk b = true := by decide +kernel
  rw [isFence, isFence, startsWith_eq_isSome, startsWith_eq_isSome, after?_append_inkless hmark h,
    Option.isSome_map]

theorem exists_dropLineEnd_append (raw : Text) (h : tail.Inkless) :
    ∃ w : Text, w.Inkless ∧ (raw ++ tail).dropLineEnd = raw.dropLineEnd ++ w := by
  obtain ⟨ends, hraw, hends⟩ := exists_trimEndWhile_append isLineEnd raw
  by_cases hnil : tail.dropLineEnd = []
  · refine ⟨[], by simp [Inkless], ?_⟩
    have hdrop : tail.reverse.dropWhile isLineEnd = [] := by
      simpa [dropLineEnd, trimEndWhile] using hnil
    simp [dropLineEnd, trimEndWhile, List.dropWhile_append, hdrop]
  · refine ⟨ends ++ tail.dropLineEnd, (inkless_of_isLineEnd hends).append fun b hb => ?_, ?_⟩
    · exact h b ((trimEndWhile_isPrefix _ _).subset hb)
    · rw [← List.append_assoc, dropLineEnd, dropLineEnd, ← hraw, trimEndWhile_append hnil]
      rfl

theorem Silent.append (h : Silent raw) (htail : tail.Inkless) : Silent (raw ++ tail) := by
  obtain ⟨w, hw, hline⟩ := exists_dropLineEnd_append raw htail
  unfold Silent opens? at h ⊢
  rw [hline, isFence_append_inkless hw, Marker.customName?_append_inkless hw,
    Marker.pullRequest?_append_inkless hw]
  refine ⟨h.1, fun q hq => ?_⟩
  rw [contains_iff_isInfix]
  exact (contains_iff_isInfix.1 (h.2 q hq)).trans (List.prefix_append ..).isInfix

theorem silent_nil : Silent [] := ⟨rfl, fun q hq => by cases hq⟩

theorem silent_of_inkless (h : tail.Inkless) : Silent tail := silent_nil.append h

end Silent

theorem append_eq_empty {a b : Lexed} (h : a ++ b = .empty) : a = .empty ∧ b = .empty := by
  obtain ⟨blocks, spans, diagnostics⟩ := a
  obtain ⟨blocks', spans', diagnostics'⟩ := b
  have hblocks := congrArg Lexed.blocks h
  have hspans := congrArg Lexed.spans h
  have hdiagnostics := congrArg Lexed.diagnostics h
  simp only [Lexed.blocks_append, Lexed.spans_append, Lexed.diagnostics_append, Lexed.empty,
    List.append_eq_nil_iff] at hblocks hspans hdiagnostics
  simp [Lexed.empty, hblocks, hspans, hdiagnostics]

theorem silent_of_gather_eq_empty {o : Origin} {parts : List Part} {lines before : List Text}
    (houtline : Outline parts lines) (h : gather o before parts = .empty) :
    ∀ raw ∈ lines, Silent raw := by
  induction houtline generalizing before with
  | nil => simp
  | @cons p parts lines hp rest ih =>
    obtain ⟨hfound, hrest⟩ := append_eq_empty h
    intro raw hraw
    rcases List.mem_append.1 hraw with hraw | hraw
    · cases p with
      | line raw' hnone =>
        obtain rfl := List.mem_singleton.1 hraw
        refine ⟨hnone, pull?_eq_none_iff (o := o) (n := before.length + 1).1 ?_⟩
        simp only [Part.found] at hfound
        split at hfound
        next => cases hfound
        next hpull => exact hpull
      | enclosed r => cases congrArg Lexed.spans hfound
      | unclosed r => cases hp
    · exact ih hrest raw hraw
  | last r => cases congrArg Lexed.diagnostics h

theorem silent_of_lex_eq_empty {source relDir text : Text} (h : lex source relDir text = .empty) :
    ∀ raw ∈ text.rawLines, Silent raw := by
  obtain ⟨parts, houtline⟩ := exists_outline text.rawLines
  rw [lex_eq_gather source relDir houtline] at h
  exact silent_of_gather_eq_empty houtline h

theorem exists_parts_of_silent {lines : List Text} (h : ∀ raw ∈ lines, Silent raw) :
    ∃ parts : List Part, (∀ p ∈ parts, p.IsClosed) ∧ parts.flatMap Part.lines = lines ∧
      ∀ o before, gather o before parts = .empty := by
  induction lines with
  | nil => exact ⟨[], by simp, rfl, fun _ _ => rfl⟩
  | cons raw lines ih =>
    have hraw := h raw (List.mem_cons_self ..)
    obtain ⟨parts, hclosed, hlines, hfound⟩ := ih fun raw hraw => h raw (List.mem_cons_of_mem _ hraw)
    refine ⟨.line raw hraw.1 :: parts, ?_, ?_, fun o before => ?_⟩
    · intro p hp
      rcases List.mem_cons.1 hp with rfl | hp
      · trivial
      · exact hclosed p hp
    · rw [List.flatMap_cons, hlines]
      rfl
    · rw [gather_cons, hraw.found, hfound]
      rfl

end Lexer

end Tangle
