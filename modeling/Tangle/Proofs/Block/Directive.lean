import Mathlib.Data.List.Forall2
import Tangle.Block.Directive
import Tangle.Proofs.Number.Decimal
import Tangle.Proofs.Text.Trim

namespace Tangle

open Text

namespace Directive

variable {d : Directive} {line : Text}

def StandsOn (d : Directive) (line : Text) : Prop :=
  ∃ key value : Text, line = key ++ equals :: value ∧ equals ∉ key ∧
    key.trim = d.key ∧ value.trim = d.value

theorem equals_notMem_blank : ∀ blank ∈ blanks, equals ∉ blank := by decide +kernel

theorem ofLine?_append {key : Text} (h : equals ∉ key) (value : Text) :
    ofLine? (key ++ equals :: value) = some ⟨key.trim, value.trim⟩ := by
  have hkey : equals ∉ key.trimStart := fun hmem => h ((dropForms_suffix _ _ _ key).subset hmem)
  rw [ofLine?, trim_append_cons equals_notMem_blank, cutByte_append hkey]
  simp

theorem ofLine?_eq_none (h : equals ∉ line) : ofLine? line = none := by
  have hpart : line.trim <:+: line := trim_infix line
  have htrim : equals ∉ line.trim := fun hmem => h (hpart.subset hmem)
  cases hcut : cutByte equals line.trim with
  | none => rw [ofLine?, hcut]; rfl
  | some parts =>
    have hparts : line.trim = parts.1 ++ equals :: parts.2 := cutByte_eq_some hcut
    simp [hparts] at htrim

theorem ofLine?_eq_some_iff : ofLine? line = some d ↔ d.StandsOn line := by
  constructor
  · intro h
    by_cases hmem : equals ∈ line
    · obtain ⟨key, value, rfl, hkey⟩ := List.eq_append_cons_of_mem hmem
      rw [ofLine?_append hkey] at h
      obtain rfl := Option.some.inj h
      exact ⟨key, value, rfl, hkey, rfl, rfl⟩
    · rw [ofLine?_eq_none hmem] at h
      cases h
  · rintro ⟨key, value, rfl, hkey, htrim, htrim'⟩
    rw [ofLine?_append hkey, htrim, htrim']

theorem StandsOn.trim_value (h : d.StandsOn line) : d.value.trim = d.value := by
  obtain ⟨key, value, -, -, -, hvalue⟩ := h
  rw [← hvalue, trim_trim]

inductive Written (d : Directive) : Text → Prop
  | mk {a b u v : Text} (ha : a.trim = []) (hb : b.trim = []) (hu : u.trim = [])
    (hv : v.trim = []) : Written d (a ++ d.key ++ b ++ equals :: (u ++ d.value ++ v))

theorem Written.standsOn (h : d.Written line) (hkey : equals ∉ d.key) (htrim : d.key.trim = d.key)
    (htrim' : d.value.trim = d.value) : d.StandsOn line := by
  obtain ⟨ha, hb, hu, hv⟩ := h
  have hpad : ∀ {pad : Text}, pad.trim = [] → equals ∉ pad := by
    intro pad hpad hmem
    obtain ⟨bs, hbs, rfl⟩ := exists_flatten_of_trim hpad
    obtain ⟨blank, hblank, hmem⟩ := List.mem_flatten.1 hmem
    exact equals_notMem_blank blank (hbs blank hblank) hmem
  refine ⟨_, _, rfl, ?_, by rw [trim_padded ha hb, htrim], by rw [trim_padded hu hv, htrim']⟩
  simp only [List.mem_append, not_or]
  exact ⟨⟨hpad ha, hkey⟩, hpad hb⟩

def IsFaulty (d : Directive) : Prop :=
  (d.key = "line_start" ∨ d.key = "line_end") ∧ ¬ Decimal.IsPositive d.value

end Directive

namespace Decimal

theorem trim_digits (n : Nat) : (digits n).trim = digits n := by
  have hblank : ∀ blank ∈ blanks, blank.all (fun b => !isDigit b) = true := by decide +kernel
  obtain ⟨ds, -, hds, -⟩ := exists_spell_digits n
  have hdigits : ∀ blank ∈ blanks, ¬ blank ⊆ digits n := by
    intro blank hmem hsubset
    obtain ⟨b, rest, rfl⟩ := List.exists_cons_of_ne_nil (ne_nil_of_mem_blanks hmem)
    have hb := List.all_eq_true.1 (all_isDigit_iff.2 ⟨ds, hds⟩) b (hsubset (List.mem_cons_self ..))
    simpa [hb] using hblank _ hmem
  rw [trim, trimStart_eq_self, trimEnd_eq_self]
  · exact fun blank hmem hsuffix => hdigits blank hmem hsuffix.subset
  · rw [← Bool.not_eq_true, startsBlank_iff]
    rintro ⟨blank, hmem, hprefix⟩
    exact hdigits blank hmem hprefix.subset

end Decimal

namespace Ref

variable {ref r : Ref} {d : Directive} {lines : List Text}

def numberDirectives (key : Text) (n : Int) : List Directive :=
  if n = 0 then [] else [⟨key, Decimal.ofInt n⟩]

def directives (ref : Ref) : List Directive :=
  ⟨"path", ref.path⟩ :: ⟨"tag", ref.tag⟩ ::
    (numberDirectives "line_start" ref.lineStart ++ numberDirectives "line_end" ref.lineEnd)

structure Sayable (ref : Ref) : Prop where
  trim_path : ref.path.trim = ref.path
  trim_tag : ref.tag.trim = ref.tag
  lineStart : ref.lineStart = 0 ∨ 1 ≤ ref.lineStart ∧ ref.lineStart < Decimal.wordBound
  lineEnd : ref.lineEnd = 0 ∨ 1 ≤ ref.lineEnd ∧ ref.lineEnd < Decimal.wordBound

/-- Lines with the directives of a reference in any order, and others without `=` between them. -/
structure Spells (lines : List Text) (ref : Ref) : Prop where
  lf_notMem : ∀ line ∈ lines, lf ∉ line
  written : ∃ ds, ds.Perm ref.directives ∧
    List.Forall₂ Directive.Written ds (lines.filter (·.any (· == equals)))

theorem lineNumber_eq_ok_iff {n : Int} :
    lineNumber d = .ok n ↔ Decimal.toInt? d.value = some n ∧ 1 ≤ n := by
  unfold lineNumber
  cases Decimal.toInt? d.value with
  | none => simp
  | some m =>
    dsimp only
    split
    next hm =>
      refine iff_of_false (by simp) ?_
      rintro ⟨heq, hpos⟩
      have := Option.some.inj heq
      omega
    next hm =>
      rw [Except.ok.injEq, Option.some.injEq]
      exact ⟨fun heq => ⟨heq, by omega⟩, fun h => h.1⟩

theorem lineNumber_ofInt {n : Int} (h : 1 ≤ n ∧ n < Decimal.wordBound) (key : Text) :
    lineNumber ⟨key, Decimal.ofInt n⟩ = .ok n := by
  have hle : -Decimal.wordBound ≤ n := by
    unfold Decimal.wordBound
    omega
  exact lineNumber_eq_ok_iff.2
    ⟨Decimal.toInt?_eq_some_iff.2 ⟨Decimal.denotes_ofInt n, hle, h.2⟩, h.1⟩

section Fault

theorem lineNumber_eq_error_iff :
    (∃ fault, lineNumber d = .error fault) ↔ ¬ Decimal.IsPositive d.value := by
  simp only [Decimal.isPositive_iff, ← lineNumber_eq_ok_iff]
  cases lineNumber d <;> simp

theorem apply_eq_error_iff : (∃ fault, r.apply d = .error fault) ↔ d.IsFaulty := by
  have hmap : ∀ f : Int → Ref, (∃ fault, (lineNumber d).map f = .error fault) ↔
      ∃ fault, lineNumber d = .error fault := by
    intro f
    cases lineNumber d <;> simp [Except.map]
  have hpath : ofString "path" ≠ "line_start" ∧ ofString "path" ≠ "line_end" := by decide
  have htag : ofString "tag" ≠ "line_start" ∧ ofString "tag" ≠ "line_end" := by decide
  unfold apply Directive.IsFaulty
  split_ifs with hkey hkey hkey hkey
  · simp [hkey, hpath]
  · simp [hkey, htag]
  · rw [hmap, lineNumber_eq_error_iff]
    simp [hkey]
  · rw [hmap, lineNumber_eq_error_iff]
    simp [hkey]
  · simp_all

theorem isSome_snd_applyLines :
    (applyLines r lines).2.isSome = true ↔
      ∃ line ∈ lines, ∃ d : Directive, d.StandsOn line ∧ d.IsFaulty := by
  induction lines generalizing r with
  | nil => simp [applyLines]
  | cons line lines ih =>
    simp only [List.exists_mem_cons_iff, ← Directive.ofLine?_eq_some_iff] at ih ⊢
    unfold applyLines
    cases hline : Directive.ofLine? line with
    | none => simp [ih]
    | some d =>
      cases happly : r.apply d with
      | ok r' =>
        have hfine : ¬ d.IsFaulty := by simp [← apply_eq_error_iff (r := r), happly]
        simp [hfine, happly, ih]
      | error fault =>
        have hfaulty : d.IsFaulty := apply_eq_error_iff.1 ⟨fault, happly⟩
        simp [hfaulty, happly]

end Fault

def update (r ref : Ref) (key : Text) : Ref where
  path := if key = "path" then ref.path else r.path
  tag := if key = "tag" then ref.tag else r.tag
  lineStart := if key = "line_start" then ref.lineStart else r.lineStart
  lineEnd := if key = "line_end" then ref.lineEnd else r.lineEnd

theorem update_update_comm (r ref : Ref) (key key' : Text) :
    (r.update ref key).update ref key' = (r.update ref key').update ref key := by
  simp only [update, Ref.mk.injEq]
  refine ⟨?_, ?_, ?_, ?_⟩ <;> split_ifs <;> rfl

theorem foldl_update_directives (ref : Ref) :
    ref.directives.foldl (fun r d => r.update ref d.key) empty = ref := by
  obtain ⟨path, lineStart, lineEnd, tag⟩ := ref
  unfold directives numberDirectives
  dsimp only
  split_ifs with hstart hend hend <;> subst_vars <;> rfl

theorem mem_directives : d ∈ ref.directives ↔
    d = ⟨"path", ref.path⟩ ∨ d = ⟨"tag", ref.tag⟩ ∨
      ref.lineStart ≠ 0 ∧ d = ⟨"line_start", Decimal.ofInt ref.lineStart⟩ ∨
      ref.lineEnd ≠ 0 ∧ d = ⟨"line_end", Decimal.ofInt ref.lineEnd⟩ := by
  have hnumber : ∀ key n, d ∈ numberDirectives key n ↔ n ≠ 0 ∧ d = ⟨key, Decimal.ofInt n⟩ := by
    intro key n
    unfold numberDirectives
    split_ifs with hn <;> simp [hn]
  simp [directives, hnumber]

theorem apply_of_mem (h : ref.Sayable) (hd : d ∈ ref.directives) (r : Ref) :
    r.apply d = .ok (r.update ref d.key) := by
  rcases mem_directives.1 hd with rfl | rfl | ⟨hne, rfl⟩ | ⟨hne, rfl⟩
  · rfl
  · rfl
  · have hkey : ofString "line_start" ≠ "path" ∧ ofString "line_start" ≠ "tag" := by decide
    rw [apply, if_neg hkey.1, if_neg hkey.2, if_pos rfl,
      lineNumber_ofInt (h.lineStart.resolve_left hne)]
    rfl
  · have hkey : ofString "line_end" ≠ "path" ∧ ofString "line_end" ≠ "tag" ∧
        ofString "line_end" ≠ "line_start" := by decide
    rw [apply, if_neg hkey.1, if_neg hkey.2.1, if_neg hkey.2.2, if_pos rfl,
      lineNumber_ofInt (h.lineEnd.resolve_left hne)]
    rfl

theorem trim_ofInt {n : Int} (h : 1 ≤ n) : (Decimal.ofInt n).trim = Decimal.ofInt n := by
  obtain ⟨n, rfl⟩ := Int.eq_ofNat_of_zero_le (by omega : 0 ≤ n)
  exact Decimal.trim_digits n

theorem ofLine?_of_written (h : ref.Sayable) (hd : d ∈ ref.directives) {line : Text}
    (hline : d.Written line) : Directive.ofLine? line = some d := by
  have hkeys : ∀ key ∈ [ofString "path", ofString "tag", ofString "line_start",
      ofString "line_end"], equals ∉ key ∧ key.trim = key := by
    decide +kernel
  have hvalue : d.key ∈ [ofString "path", ofString "tag", ofString "line_start",
      ofString "line_end"] ∧ d.value.trim = d.value := by
    rcases mem_directives.1 hd with rfl | rfl | ⟨hne, rfl⟩ | ⟨hne, rfl⟩
    · exact ⟨by simp, h.trim_path⟩
    · exact ⟨by simp, h.trim_tag⟩
    · exact ⟨by simp, trim_ofInt (h.lineStart.resolve_left hne).1⟩
    · exact ⟨by simp, trim_ofInt (h.lineEnd.resolve_left hne).1⟩
  obtain ⟨hequals, htrim⟩ := hkeys d.key hvalue.1
  exact Directive.ofLine?_eq_some_iff.2 (hline.standsOn hequals htrim hvalue.2)

theorem applyLines_of_written {ds : List Directive} (h : ref.Sayable)
    (hds : ∀ d ∈ ds, d ∈ ref.directives)
    (hlines : List.Forall₂ Directive.Written ds (lines.filter (·.any (· == equals)))) (r : Ref) :
    applyLines r lines = (ds.foldl (fun r d => r.update ref d.key) r, none) := by
  induction lines generalizing ds r with
  | nil =>
    obtain rfl := List.forall₂_nil_right_iff.1 hlines
    rfl
  | cons line lines ih =>
    unfold applyLines
    by_cases hmem : equals ∈ line
    · rw [List.filter_cons_of_pos (by simpa using hmem)] at hlines
      cases hlines with
      | cons hline hrest =>
        rw [List.forall_mem_cons] at hds
        rw [ofLine?_of_written h hds.1 hline]
        dsimp only
        rw [apply_of_mem h hds.1]
        exact ih hds.2 hrest _
    · rw [List.filter_cons_of_neg (by simpa using hmem)] at hlines
      rw [Directive.ofLine?_eq_none hmem]
      exact ih hds hlines r

theorem ofBody_of_spells (h : ref.Sayable) (hlines : Spells lines ref) :
    ofBody (join [lf] lines) = (ref, none) := by
  obtain ⟨ds, hperm, hwritten⟩ := hlines.written
  have hne : lines ≠ [] := by
    rintro rfl
    obtain rfl := List.forall₂_nil_right_iff.1 hwritten
    exact absurd hperm.nil_eq (List.cons_ne_nil _ _).symm
  have hfold : ds.foldl (fun r d => r.update ref d.key) empty = ref := by
    rw [hperm.foldl_eq' fun d _ d' _ r => update_update_comm r ref d.key d'.key]
    exact foldl_update_directives ref
  rw [ofBody, split_join hne hlines.lf_notMem,
    applyLines_of_written h (fun d hd => hperm.mem_iff.1 hd) hwritten, hfold]

/-- However the directives of a reference are written out, they are read as that reference, and a
body is refused exactly when one of its lines has a line number that is no positive number of
64 bits. -/
theorem ofBody_directives :
    (∀ (ref : Ref) (lines : List Text), ref.Sayable → Spells lines ref →
      ofBody (join [lf] lines) = (ref, none)) ∧
    ∀ body, (ofBody body).2.isSome = true ↔
      ∃ line ∈ body.split lf, ∃ d : Directive, d.StandsOn line ∧ d.IsFaulty :=
  ⟨fun _ _ h hlines => ofBody_of_spells h hlines, fun _ => isSome_snd_applyLines⟩

theorem ofBody_directives_shuffled :
    Sayable ⟨"a=b.js", 3, 0, "t"⟩ ∧
      Spells [" tag =t", "see below", "\tline_start = 3", "path=a=b.js "] ⟨"a=b.js", 3, 0, "t"⟩ ∧
      ofBody " tag =t\nsee below\n\tline_start = 3\npath=a=b.js " =
        (⟨"a=b.js", 3, 0, "t"⟩, none) := by
  have hsayable : Sayable ⟨"a=b.js", 3, 0, "t"⟩ :=
    ⟨by decide +kernel, by decide +kernel, .inr (by decide), .inl rfl⟩
  have htag : Directive.Written ⟨"tag", "t"⟩ " tag =t" :=
    .mk (a := " ") (b := " ") (u := []) (v := []) rfl rfl rfl rfl
  have hstart : Directive.Written ⟨"line_start", "3"⟩ "\tline_start = 3" :=
    .mk (a := "\t") (b := " ") (u := " ") (v := []) rfl rfl rfl rfl
  have hpath : Directive.Written ⟨"path", "a=b.js"⟩ "path=a=b.js " :=
    .mk (a := []) (b := []) (u := []) (v := " ") rfl rfl rfl rfl
  have hspells : Spells [" tag =t", "see below", "\tline_start = 3", "path=a=b.js "]
      ⟨"a=b.js", 3, 0, "t"⟩ :=
    ⟨by decide +kernel, [⟨"tag", "t"⟩, ⟨"line_start", "3"⟩, ⟨"path", "a=b.js"⟩], by decide +kernel,
      .cons htag (.cons hstart (.cons hpath .nil))⟩
  have hbody : ofString " tag =t\nsee below\n\tline_start = 3\npath=a=b.js " =
      join [lf] [" tag =t", "see below", "\tline_start = 3", "path=a=b.js "] := by
    decide +kernel
  refine ⟨hsayable, hspells, ?_⟩
  rw [hbody]
  exact ofBody_directives.1 _ _ hsayable hspells

end Ref

end Tangle
