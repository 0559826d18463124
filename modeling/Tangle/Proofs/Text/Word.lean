import Tangle.Proofs.Text.Lines

namespace Tangle.Text

def whiteSpace : List Char :=
  [0x9, 0xA, 0xB, 0xC, 0xD, 0x20, 0x85, 0xA0, 0x1680, 0x2000, 0x2001, 0x2002, 0x2003, 0x2004,
    0x2005, 0x2006, 0x2007, 0x2008, 0x2009, 0x200A, 0x2028, 0x2029, 0x202F, 0x205F,
    0x3000].map Char.ofNat

def blanks : List Text := whiteSpace.map String.utf8EncodeChar

def isBlank : Text → Bool
  | [a] => isBlank1 a
  | [a, b] => isBlank2 a b
  | [a, b, c] => isBlank3 a b c
  | _ => false

theorem isBlank_of_mem {t : Text} : t ∈ blanks → isBlank t = true :=
  (by decide +kernel : ∀ t ∈ blanks, isBlank t = true) t

def leads : List Text := [[], [0xC2], [0xE1, 0x9A], [0xE2, 0x80], [0xE2, 0x81], [0xE3, 0x80]]

theorem mem_blanks_of_mem_leads {lead : Text} (h : lead ∈ leads) {b : UInt8}
    (hb : isBlank (lead ++ [b]) = true) : lead ++ [b] ∈ blanks := by
  have hlast : ∀ lead ∈ leads, ∀ n < 256, isBlank (lead ++ [UInt8.ofNat n]) = true →
      lead ++ [UInt8.ofNat n] ∈ blanks := by
    decide +kernel
  simpa using hlast lead h b.toNat b.toNat_lt (by simpa using hb)

theorem mem_blanks_of_isBlank {t : Text} (h : isBlank t = true) : t ∈ blanks := by
  unfold isBlank at h
  split at h
  next a =>
    have hlead : [] ∈ leads := by simp [leads]
    exact mem_blanks_of_mem_leads hlead h
  next a b =>
    have hlead : [a] ∈ leads := by simp_all [isBlank2, leads]
    exact mem_blanks_of_mem_leads hlead h
  next a b c =>
    have hlead : [a, b] ∈ leads := by
      simp only [isBlank3, Bool.or_eq_true, Bool.and_eq_true, beq_iff_eq] at h
      rcases h with ((h | h) | h) | h <;> simp [h.1.1, h.1.2, leads]
    exact mem_blanks_of_mem_leads hlead h
  next => cases h

theorem ne_nil_of_mem_blanks {blank : Text} (h : blank ∈ blanks) : blank ≠ [] := by
  rintro rfl
  cases isBlank_of_mem h

def isContinuation (b : UInt8) : Bool := 0x80 ≤ b && b ≤ 0xBF

def isOneCharacter : Text → Bool
  | [] => false
  | a :: t => !isContinuation a && t.all isContinuation

theorem isOneCharacter_of_mem {blank : Text} : blank ∈ blanks → isOneCharacter blank = true :=
  (by decide +kernel : ∀ blank ∈ blanks, isOneCharacter blank = true) blank

theorem head_notMem_tail {a : UInt8} {u blank : Text} (h : a :: u ∈ blanks) (h' : blank ∈ blanks) :
    a ∉ blank.tail := by
  have hlead := isOneCharacter_of_mem h
  have htail := isOneCharacter_of_mem h'
  intro ha
  cases blank with
  | nil => cases ha
  | cons b t =>
    simp only [isOneCharacter, Bool.and_eq_true, Bool.not_eq_true', List.all_eq_true] at hlead htail
    simp [htail.2 a ha] at hlead

section Form

variable {one : UInt8 → Bool} {two : UInt8 → UInt8 → Bool} {three : UInt8 → UInt8 → UInt8 → Bool}

def isForm (one : UInt8 → Bool) (two : UInt8 → UInt8 → Bool)
    (three : UInt8 → UInt8 → UInt8 → Bool) : Text → Bool
  | [a] => one a
  | [a, b] => two a b
  | [a, b, c] => three a b c
  | _ => false

theorem dropForms_append {form : Text} (h : isForm one two three form = true)
    (hshort : ∀ lead, lead <+: form → isForm one two three lead = true → lead = form) (t : Text) :
    dropForms one two three (form ++ t) = dropForms one two three t := by
  unfold isForm at h
  split at h
  next a =>
    rw [dropForms.eq_def]
    simp [h]
  next a b =>
    have hone : one a = false := Bool.eq_false_iff.2 fun hone => by
      simpa using hshort [a] ⟨[b], rfl⟩ hone
    rw [dropForms.eq_def]
    simp [h, hone]
  next a b c =>
    have hone : one a = false := Bool.eq_false_iff.2 fun hone => by
      simpa using hshort [a] ⟨[b, c], rfl⟩ hone
    have htwo : two a b = false := Bool.eq_false_iff.2 fun htwo => by
      simpa using hshort [a, b] ⟨[c], rfl⟩ htwo
    rw [dropForms.eq_def]
    simp [h, hone, htwo]
  next => cases h

theorem dropForms_cases (one : UInt8 → Bool) (two : UInt8 → UInt8 → Bool)
    (three : UInt8 → UInt8 → UInt8 → Bool) (t : Text) :
    (∃ form rest, isForm one two three form = true ∧ t = form ++ rest ∧
      dropForms one two three t = dropForms one two three rest) ∨ dropForms one two three t = t := by
  cases t with
  | nil => exact .inr rfl
  | cons a t =>
    by_cases hone : one a = true
    · exact .inl ⟨[a], t, hone, rfl, by rw [dropForms.eq_def]; simp [hone]⟩
    · cases t with
      | nil => exact .inr (by simp [dropForms, hone])
      | cons b t =>
        by_cases htwo : two a b = true
        · exact .inl ⟨[a, b], t, htwo, rfl, by rw [dropForms.eq_def]; simp [hone, htwo]⟩
        · cases t with
          | nil => exact .inr (by simp [dropForms, hone, htwo])
          | cons c t =>
            by_cases hthree : three a b c = true
            · exact .inl ⟨[a, b, c], t, hthree, rfl, by simp [dropForms, hone, htwo, hthree]⟩
            · exact .inr (by simp [dropForms, hone, htwo, hthree])

end Form

theorem isForm_eq_isBlank (t : Text) : isForm isBlank1 isBlank2 isBlank3 t = isBlank t := by
  unfold isForm isBlank
  split <;> rfl

theorem eq_of_prefix_of_mem_blanks {blank blank' : Text} (h : blank ∈ blanks)
    (h' : blank' ∈ blanks) (hlead : blank <+: blank') : blank = blank' := by
  have hfree : ∀ a ∈ blanks, ∀ b ∈ blanks, a.isPrefixOf b = true → a = b := by decide +kernel
  exact hfree blank h blank' h' (List.isPrefixOf_iff_prefix.2 hlead)

theorem trimStart_append {blank : Text} (h : blank ∈ blanks) (t : Text) :
    trimStart (blank ++ t) = trimStart t := by
  refine dropForms_append ((isForm_eq_isBlank blank).trans (isBlank_of_mem h)) ?_ t
  intro lead hlead hform
  rw [isForm_eq_isBlank] at hform
  exact eq_of_prefix_of_mem_blanks (mem_blanks_of_isBlank hform) h hlead

theorem trimStart_cases (t : Text) :
    (∃ blank ∈ blanks, ∃ rest, t = blank ++ rest ∧ trimStart t = trimStart rest) ∨
      trimStart t = t := by
  refine (dropForms_cases isBlank1 isBlank2 isBlank3 t).imp ?_ id
  rintro ⟨blank, rest, hform, ht, hrest⟩
  rw [isForm_eq_isBlank] at hform
  exact ⟨blank, mem_blanks_of_isBlank hform, rest, ht, hrest⟩

theorem startsBlank_iff {t : Text} : startsBlank t = true ↔ ∃ blank ∈ blanks, blank <+: t := by
  rw [startsBlank, decide_eq_true_eq]
  constructor
  · intro h
    rcases trimStart_cases t with ⟨blank, hblank, rest, rfl, -⟩ | heq
    · exact ⟨blank, hblank, List.prefix_append ..⟩
    · exact absurd h (by simp [heq])
  · rintro ⟨blank, hblank, rest, rfl⟩
    have hrest : (trimStart rest).length ≤ rest.length := (dropForms_suffix _ _ _ rest).length_le
    have hpos := List.length_pos_of_ne_nil (ne_nil_of_mem_blanks hblank)
    rw [trimStart_append hblank, List.length_append]
    omega

theorem trimStart_eq_self {t : Text} (h : startsBlank t = false) : trimStart t = t := by
  rcases trimStart_cases t with ⟨blank, hblank, rest, rfl, -⟩ | heq
  · have hstarts := startsBlank_iff.2 ⟨blank, hblank, List.prefix_append blank rest⟩
    rw [h] at hstarts
    cases hstarts
  · exact heq

theorem trimStart_flatten_append {lead : List Text} (h : ∀ blank ∈ lead, blank ∈ blanks)
    (t : Text) : trimStart (lead.flatten ++ t) = trimStart t := by
  induction lead with
  | nil => rfl
  | cons blank lead ih =>
    obtain ⟨hblank, hlead⟩ := List.forall_mem_cons.1 h
    rw [List.flatten_cons, List.append_assoc, trimStart_append hblank, ih hlead]

theorem exists_trimStart (t : Text) :
    ∃ lead : List Text, (∀ blank ∈ lead, blank ∈ blanks) ∧ t = lead.flatten ++ trimStart t := by
  induction h : t.length using Nat.strong_induction_on generalizing t with
  | _ n ih =>
    rcases trimStart_cases t with ⟨blank, hblank, rest, rfl, hrest⟩ | heq
    · have hpos := List.length_pos_of_ne_nil (ne_nil_of_mem_blanks hblank)
      rw [List.length_append] at h
      obtain ⟨lead, hlead, hsplit⟩ := ih rest.length (by omega) rest rfl
      refine ⟨blank :: lead, List.forall_mem_cons.2 ⟨hblank, hlead⟩, ?_⟩
      rw [hrest, List.flatten_cons, List.append_assoc, ← hsplit]
    · exact ⟨[], by simp, by simp [heq]⟩

def EndsWord (rest : Text) : Prop := rest = [] ∨ ∃ blank ∈ blanks, blank <+: rest

section Word

variable {word t : Text}

theorem takeWord_isPrefix (t : Text) : takeWord t <+: t := by
  induction t with
  | nil => exact List.prefix_rfl
  | cons b t ih =>
    rw [takeWord]
    split
    next => exact List.nil_prefix
    next => exact List.prefix_cons_inj b |>.2 ih

theorem not_infix_takeWord {blank : Text} (h : blank ∈ blanks) (t : Text) :
    ¬ blank <:+: takeWord t := by
  have hne := ne_nil_of_mem_blanks h
  induction t with
  | nil => simpa [takeWord] using hne
  | cons b t ih =>
    rw [takeWord]
    split
    next => simpa using hne
    next hstart =>
      rw [List.infix_cons_iff, not_or]
      refine ⟨fun hprefix => hstart (startsBlank_iff.2 ⟨blank, h, hprefix.trans ?_⟩), ih⟩
      exact (List.prefix_cons_inj b).2 (takeWord_isPrefix t)

theorem exists_takeWord_append (t : Text) :
    ∃ rest, t = takeWord t ++ rest ∧ EndsWord rest := by
  induction t with
  | nil => exact ⟨[], rfl, .inl rfl⟩
  | cons b t ih =>
    rw [takeWord]
    split
    next hstart => exact ⟨b :: t, rfl, .inr (startsBlank_iff.1 hstart)⟩
    next =>
      obtain ⟨rest, hsplit, hrest⟩ := ih
      exact ⟨rest, by rw [List.cons_append, ← hsplit], hrest⟩

/-- A blank that starts in a word and ends after it would hold the byte that leads the blank after
the word. -/
theorem not_startsBlank_append {rest : Text} (hne : word ≠ [])
    (hword : ∀ blank ∈ blanks, ¬ blank <:+: word)
    (hrest : EndsWord rest) :
    startsBlank (word ++ rest) = false := by
  rw [← Bool.not_eq_true, startsBlank_iff]
  rintro ⟨blank, hblank, hprefix⟩
  rcases List.prefix_or_prefix_of_prefix hprefix (List.prefix_append word rest) with h | h
  · exact hword blank hblank h.isInfix
  · obtain ⟨excess, rfl⟩ := h
    have hexcess : excess <+: rest := (List.prefix_append_right_inj word).1 hprefix
    cases excess with
    | nil => exact hword _ hblank (by simp)
    | cons a excess =>
      rcases hrest with rfl | ⟨next, hnext, hlead⟩
      · simp at hexcess
      · obtain ⟨b, tail, rfl⟩ := List.exists_cons_of_ne_nil (ne_nil_of_mem_blanks hnext)
        obtain ⟨after, rfl⟩ := hlead
        obtain rfl : a = b := (List.cons_prefix_cons.1 hexcess).1
        refine head_notMem_tail hnext hblank ?_
        obtain ⟨c, word, rfl⟩ := List.exists_cons_of_ne_nil hne
        simp

theorem takeWord_append {rest : Text} (hword : ∀ blank ∈ blanks, ¬ blank <:+: word)
    (hrest : EndsWord rest) : takeWord (word ++ rest) = word := by
  induction word with
  | nil =>
    rcases hrest with rfl | hrest
    · rfl
    · cases rest with
      | nil => rfl
      | cons b rest => simp [takeWord, startsBlank_iff.2 hrest]
  | cons b word ih =>
    have hstart := not_startsBlank_append (List.cons_ne_nil b word) hword hrest
    rw [List.cons_append] at hstart ⊢
    rw [takeWord, hstart, ih fun blank hblank h => hword blank hblank (List.infix_cons h)]
    rfl

structure IsFirstWord (word t : Text) : Prop where
  ne_nil : word ≠ []
  unbroken : ∀ blank ∈ blanks, ¬ blank <:+: word
  placed : ∃ (lead : List Text) (rest : Text), t = lead.flatten ++ word ++ rest ∧
    (∀ blank ∈ lead, blank ∈ blanks) ∧ EndsWord rest

theorem isFirstWord_iff : IsFirstWord word t ↔ word ≠ [] ∧ firstWord t = word := by
  constructor
  · rintro ⟨hne, hword, lead, rest, rfl, hlead, hrest⟩
    refine ⟨hne, ?_⟩
    rw [firstWord, List.append_assoc, trimStart_flatten_append hlead,
      trimStart_eq_self (not_startsBlank_append hne hword hrest), takeWord_append hword hrest]
  · rintro ⟨hne, rfl⟩
    obtain ⟨lead, hlead, hsplit⟩ := exists_trimStart t
    obtain ⟨rest, hword, hrest⟩ := exists_takeWord_append t.trimStart
    refine ⟨hne, fun blank hblank => not_infix_takeWord hblank _, lead, rest, ?_, hlead, hrest⟩
    rw [firstWord, List.append_assoc, ← hword, ← hsplit]

end Word

end Tangle.Text
