import Tangle.Proofs.Document.Marker

namespace Tangle

open Text

namespace Text

theorem cut_exchange {sep before rest : Text} (hne : sep ≠ [])
    (h : cut sep (before ++ (sep ++ rest)) = some (before, rest)) (tail : Text) :
    cut sep (before ++ (sep ++ tail)) = some (before, tail) := by
  induction before with
  | nil => exact cut_append_self hne tail
  | cons b before ih =>
    rw [List.cons_append, cut] at h ⊢
    split at h
    next => simp at h
    next hnone =>
      rw [← Option.not_isSome_iff_eq_none, after?_isSome] at hnone
      have hnone' : after? sep (b :: (before ++ (sep ++ tail))) = none := by
        rw [← Option.not_isSome_iff_eq_none, after?_isSome]
        intro hlead
        -- An earlier occurrence would end within this one.
        have hshort : sep <+: b :: (before ++ sep) := by
          apply List.prefix_of_prefix_length_le hlead ⟨tail, by simp⟩
          simp only [List.length_cons, List.length_append]
          omega
        exact hnone (hshort.trans ⟨rest, by simp⟩)
      have hcut : cut sep (before ++ (sep ++ rest)) = some (before, rest) := by
        obtain ⟨⟨x, y⟩, hxy, heq⟩ := Option.map_eq_some_iff.1 h
        simp only [Prod.mk.injEq, List.cons.injEq, true_and] at heq
        rw [hxy, heq.1, heq.2]
      rw [hnone', ih hcut]
      rfl

theorem notMem_of_cutByte_eq_some {sep : UInt8} {t before rest : Text}
    (h : cutByte sep t = some (before, rest)) : sep ∉ before := by
  induction t generalizing before with
  | nil => simp [cutByte] at h
  | cons b t ih =>
    simp only [cutByte] at h
    split at h
    next =>
      simp only [Option.some.injEq, Prod.mk.injEq] at h
      simp [← h.1]
    next hb =>
      obtain ⟨⟨x, y⟩, hxy, heq⟩ := Option.map_eq_some_iff.1 h
      simp only [Prod.mk.injEq] at heq
      obtain ⟨rfl, rfl⟩ := heq
      simp [Ne.symm hb, ih hxy]

theorem dropLineEnd_append {t : Text} (h : t.dropLineEnd = t) (u : Text) :
    (t ++ u).dropLineEnd = t ++ u.dropLineEnd := by
  by_cases hu : u.dropLineEnd = []
  · have hdrop : u.reverse.dropWhile isLineEnd = [] := by
      simpa [dropLineEnd, trimEndWhile] using hu
    rw [hu, List.append_nil]
    calc (t ++ u).dropLineEnd = t.dropLineEnd := by
          simp [dropLineEnd, trimEndWhile, List.dropWhile_append, hdrop]
      _ = t := h
  · exact trimEndWhile_append hu t

end Text

namespace Marker

variable {t rest name : Text}

theorem lastField?_cases (h : lastField? t = some (name, rest)) :
    ∃ blanks : Text, (∀ b ∈ blanks, isSpace b = true) ∧
      ((∃ b before, isSpace b = false ∧ t = blanks ++ b :: (before ++ (closing ++ rest)) ∧
          cut closing (before ++ (closing ++ rest)) = some (before, rest) ∧
          name = trimEndWhile isSpace (b :: before)) ∨
        ∃ s, blanks.getLast? = some s ∧ t = blanks ++ (closing ++ rest) ∧ name = [s]) := by
  have hblanks : ∀ b ∈ t.takeWhile isSpace, isSpace b = true := fun b hb =>
    List.mem_takeWhile_imp hb
  have hsplit := List.takeWhile_append_dropWhile (p := isSpace) (l := t)
  refine ⟨t.takeWhile isSpace, hblanks, ?_⟩
  unfold lastField? at h
  split at h
  next => cases h
  next b tail hdrop =>
    have hb : isSpace b = false := by
      have := List.head_dropWhile_not isSpace (l := t) (by simp [hdrop])
      simpa [hdrop] using this
    split at h
    next before after hcut =>
      simp only [Option.some.injEq, Prod.mk.injEq] at h
      obtain ⟨rfl, rfl⟩ := h
      have htail := cut_eq_some hcut
      rw [List.append_assoc] at htail
      rw [hdrop, htail] at hsplit
      exact .inl ⟨b, before, hb, hsplit.symm, htail ▸ hcut, rfl⟩
    next =>
      split at h
      next s after hlast hafter =>
        simp only [Option.some.injEq, Prod.mk.injEq] at h
        obtain ⟨rfl, rfl⟩ := h
        rw [hdrop, after?_eq_some hafter] at hsplit
        exact .inr ⟨s, hlast, hsplit.symm, rfl⟩
      next => cases h

section Blanks

variable {blanks u : Text} {b : UInt8} (hblanks : ∀ b ∈ blanks, isSpace b = true)
  (hb : isSpace b = false)

include hblanks hb

theorem dropWhile_blanks : (blanks ++ b :: u).dropWhile isSpace = b :: u := by
  rw [List.dropWhile_append_of_pos hblanks, List.dropWhile_cons_of_neg (by simp [hb])]

theorem takeWhile_blanks : (blanks ++ b :: u).takeWhile isSpace = blanks := by
  rw [List.takeWhile_append_of_pos hblanks, List.takeWhile_cons_of_neg (by simp [hb]),
    List.append_nil]

theorem lastField?_of_cut {before after : Text} (hcut : cut closing u = some (before, after)) :
    lastField? (blanks ++ b :: u) = some (trimEndWhile isSpace (b :: before), after) := by
  simp only [lastField?, dropWhile_blanks hblanks hb, hcut]

theorem lastField?_of_getLast? {s : UInt8} {after : Text} (hcut : cut closing u = none)
    (hs : blanks.getLast? = some s) (hafter : after? closing (b :: u) = some after) :
    lastField? (blanks ++ b :: u) = some ([s], after) := by
  simp only [lastField?, dropWhile_blanks hblanks hb, takeWhile_blanks hblanks hb, hcut, hs, hafter]

end Blanks

/-- A blank name and a further closing after the marker, up to which the marker is then read. -/
def ReadsOn (name tail : Text) : Prop :=
  name.all isSpace = true ∧ tail.contains closing = true

instance (name tail : Text) : Decidable (ReadsOn name tail) := inferInstanceAs (Decidable (_ ∧ _))

theorem cut_closing_append (tail : Text) :
    cut closing ([45, 62] ++ tail) =
      (cut closing tail).map fun (before, rest) => (45 :: 62 :: before, rest) := by
  have hfirst : after? closing (45 :: 62 :: tail) = none := rfl
  have hsecond : after? closing (62 :: tail) = none := rfl
  simp only [List.cons_append, List.nil_append, cut, hfirst, hsecond, Option.map_map]
  rfl

theorem exists_lastField?_append (h : lastField? (t ++ rest) = some (name, rest)) (tail : Text) :
    ∃ name' rest', lastField? (t ++ tail) = some (name', rest') ∧
      (rest'.length = tail.length ↔ ¬ ReadsOn name tail) := by
  obtain ⟨blanks, hblanks, ⟨b, before, hb, ht, hcut, rfl⟩ | ⟨s, hs, ht, rfl⟩⟩ := lastField?_cases h
  · have ht : t = blanks ++ b :: (before ++ closing) := by
      rw [← List.append_left_inj rest]
      simpa using ht
    have htail : t ++ tail = blanks ++ b :: (before ++ (closing ++ tail)) := by simp [ht]
    have hink : ¬ ReadsOn (trimEndWhile isSpace (b :: before)) tail := by
      rintro ⟨hall, -⟩
      obtain ⟨ends, hends, hspace⟩ := exists_trimEndWhile_append isSpace (b :: before)
      have hmem : b ∈ trimEndWhile isSpace (b :: before) ++ ends := hends ▸ List.mem_cons_self ..
      rcases List.mem_append.1 hmem with hmem | hmem
      · simp [List.all_eq_true.1 hall b hmem] at hb
      · simp [hspace b hmem] at hb
    refine ⟨trimEndWhile isSpace (b :: before), tail, ?_, iff_of_true rfl hink⟩
    rw [htail, lastField?_of_cut hblanks hb (cut_exchange (by decide) hcut tail)]
  · have ht : t = blanks ++ closing := by
      rw [← List.append_left_inj rest]
      simpa using ht
    have htail : t ++ tail = blanks ++ 45 :: ([45, 62] ++ tail) := by
      rw [ht, List.append_assoc]
      rfl
    have hspace : [s].all isSpace = true := by
      simpa using hblanks s (List.mem_of_getLast? hs)
    have hcut' := cut_closing_append tail
    rw [htail]
    cases hcut : cut closing tail with
    | none =>
      rw [hcut] at hcut'
      refine ⟨[s], tail, ?_, iff_of_true rfl fun h => ?_⟩
      · exact lastField?_of_getLast? hblanks (by decide) hcut' hs (after?_append closing tail)
      · simp [ReadsOn, contains, hcut] at h
    | some r =>
      rw [hcut] at hcut'
      have hlength := congrArg List.length (cut_eq_some hcut)
      have hclosing : closing.length = 3 := rfl
      refine ⟨_, r.2, lastField?_of_cut hblanks (by decide) hcut',
        iff_of_false ?_ (not_not_intro ⟨hspace, ?_⟩)⟩
      · rw [List.length_append, List.length_append] at hlength
        omega
      · simp [contains, hcut]

theorem exists_lead_of_word? {word : Text} (hword : ∀ u, (word ++ u).dropWhile isSpace = word ++ u)
    (h : word? word t = some rest) :
    ∃ lead : Text, t = lead ++ rest ∧ ∀ u, word? word (lead ++ u) = some u := by
  refine ⟨t.takeWhile isSpace ++ word, ?_, fun u => ?_⟩
  · rw [List.append_assoc, ← after?_eq_some h, List.takeWhile_append_dropWhile]
  · have hblanks : ∀ b ∈ t.takeWhile isSpace, isSpace b = true := fun b hb =>
      List.mem_takeWhile_imp hb
    rw [word?, List.append_assoc, List.dropWhile_append_of_pos hblanks, hword, after?_append]

theorem exists_head {line : Text} {q : PullRequest} (h : pullRequest? line = some q) :
    ∃ head t rest : Text, q.marker = head ++ t ∧ lastField? (t ++ rest) = some (q.name, rest) ∧
      ∀ u, pullRequest? (head ++ u) = (lastField? u).map fun (name, rest) =>
        ⟨q.path, name, (head ++ u).take ((head ++ u).length - rest.length)⟩ := by
  simp only [pullRequest?, Option.bind_eq_bind, Option.bind_eq_some_iff] at h
  obtain ⟨t₁, hopening, t₂, hpull, ⟨pathField, t₃⟩, hcut, path, hpath, t₄, hblock, ⟨name, rest⟩,
    hlast, hq⟩ := h
  dsimp only at hpath hblock hq
  obtain rfl := Option.some.inj hq
  obtain ⟨lead, ht₁, hlead⟩ := exists_lead_of_word? (fun _ => rfl) hpull
  obtain ⟨lead', ht₃, hlead'⟩ := exists_lead_of_word? (fun _ => rfl) hblock
  obtain ⟨t, rfl⟩ := (of_lastField?_eq_some hlast).2
  have hline : line = (opening ++ (lead ++ (pathField ++ comma :: lead'))) ++ (t ++ rest) := by
    rw [after?_eq_some hopening, ht₁, cutByte_eq_some hcut, ht₃]
    simp
  refine ⟨opening ++ (lead ++ (pathField ++ comma :: lead')), t, rest, ?_, hlast, fun u => ?_⟩
  · have hlength : line.length - rest.length =
        (opening ++ (lead ++ (pathField ++ comma :: lead')) ++ t).length := by
      simp only [hline, List.length_append]
      omega
    rw [hlength, hline, ← List.append_assoc _ t rest, List.take_left]
  · have hcut' : cutByte comma (pathField ++ comma :: (lead' ++ u)) =
        some (pathField, lead' ++ u) := cutByte_append (notMem_of_cutByte_eq_some hcut) _
    simp only [pullRequest?, List.append_assoc, List.cons_append, after?_append, hlead, hcut',
      hpath, hlead', Option.bind_eq_bind, Option.bind_some]
    cases lastField? u <;> rfl

theorem exists_pullRequest?_append {line : Text} {q : PullRequest} (h : pullRequest? line = some q)
    (tail : Text) : ∃ q', pullRequest? (q.marker ++ tail) = some q' ∧
      (q'.marker = q.marker ↔ ¬ ReadsOn q.name tail) := by
  obtain ⟨head, t, rest, hmarker, hlast, hread⟩ := exists_head h
  obtain ⟨name', rest', hlast', hiff⟩ := exists_lastField?_append hlast tail
  have hlength := (of_lastField?_eq_some hlast').2.length_le
  rw [hmarker, List.append_assoc, hread, hlast']
  refine ⟨_, rfl, ?_⟩
  rw [← hiff]
  dsimp only
  constructor
  · intro heq
    have := congrArg List.length heq
    simp only [List.length_take, List.length_append] at this hlength
    omega
  · intro heq
    have hcount : (head ++ (t ++ tail)).length - rest'.length = (head ++ t).length := by
      simp only [List.length_append]
      omega
    rw [hcount, ← List.append_assoc, List.take_left]

theorem closing_isSuffix_marker {line : Text} {q : PullRequest} (h : pullRequest? line = some q) :
    closing <:+ q.marker := by
  obtain ⟨head, t, rest, hmarker, hlast, -⟩ := exists_head h
  have ht : closing <:+ t := by
    obtain ⟨blanks, -, ⟨b, before, -, ht, -⟩ | ⟨s, -, ht, -⟩⟩ := lastField?_cases hlast
    · refine ⟨blanks ++ b :: before, (List.append_left_inj rest).1 ?_⟩
      simpa using ht.symm
    · refine ⟨blanks, (List.append_left_inj rest).1 ?_⟩
      simpa using ht.symm
  rw [hmarker]
  exact ht.trans (List.suffix_append ..)

theorem dropLineEnd_marker {line : Text} {q : PullRequest} (h : pullRequest? line = some q) :
    q.marker.dropLineEnd = q.marker := by
  obtain ⟨lead, hlead⟩ := closing_isSuffix_marker h
  rw [← hlead, dropLineEnd, trimEndWhile_append (by decide)]
  rfl

end Marker

end Tangle
