import Mathlib.Data.List.Basic
import Mathlib.Data.List.Induction
import Mathlib.Data.Nat.Digits.Defs
import Tangle.Number.Decimal

namespace Tangle.Decimal

open Text

def spell (ds : List (Fin 10)) : Text := ds.map fun d => 48 + UInt8.ofNat d.val

def number (ds : List (Fin 10)) : Nat := Nat.ofDigits 10 (ds.reverse.map Fin.val)

inductive Denotes : Text → Int → Prop
  | unsigned {ds : List (Fin 10)} (h : ds ≠ []) : Denotes (spell ds) (number ds)
  | plus {ds : List (Fin 10)} (h : ds ≠ []) : Denotes ("+" ++ spell ds) (number ds)
  | minus {ds : List (Fin 10)} (h : ds ≠ []) : Denotes ("-" ++ spell ds) (-number ds)

theorem toNat_digit (d : Fin 10) : (48 + UInt8.ofNat d).toNat = 48 + d := by
  have hzero : (48 : UInt8).toNat = 48 := rfl
  have := d.isLt
  rw [UInt8.toNat_add, UInt8.toNat_ofNat', hzero]
  omega

theorem isDigit_iff {b : UInt8} : isDigit b = true ↔ ∃ d : Fin 10, b = 48 + UInt8.ofNat d := by
  have hzero : (48 : UInt8).toNat = 48 := rfl
  have hnine : (57 : UInt8).toNat = 57 := rfl
  rw [isDigit, Bool.and_eq_true, decide_eq_true_eq, decide_eq_true_eq, UInt8.le_iff_toNat_le,
    UInt8.le_iff_toNat_le, hzero, hnine]
  constructor
  · rintro ⟨hle, hge⟩
    refine ⟨⟨b.toNat - 48, by omega⟩, UInt8.toNat_inj.1 ?_⟩
    rw [toNat_digit]
    dsimp only
    omega
  · rintro ⟨d, rfl⟩
    have := d.isLt
    rw [toNat_digit]
    omega

theorem all_isDigit_iff {t : Text} : t.all isDigit = true ↔ ∃ ds, t = spell ds := by
  induction t with
  | nil => simpa using ⟨[], rfl⟩
  | cons b t ih =>
    rw [List.all_cons, Bool.and_eq_true, isDigit_iff, ih]
    constructor
    · rintro ⟨⟨d, rfl⟩, ds, rfl⟩
      exact ⟨d :: ds, rfl⟩
    · rintro ⟨ds, hds⟩
      cases ds with
      | nil => cases hds
      | cons d ds =>
        obtain ⟨rfl, rfl⟩ := List.cons.inj hds
        exact ⟨⟨d, rfl⟩, ds, rfl⟩

theorem spell_eq_nil_iff {ds : List (Fin 10)} : spell ds = [] ↔ ds = [] := List.map_eq_nil_iff

theorem value_spell (ds : List (Fin 10)) : value (spell ds) = number ds := by
  induction ds using List.reverseRecOn with
  | nil => rfl
  | append_singleton ds d ih =>
    have hvalue : value (spell (ds ++ [d])) = 10 * value (spell ds) + d := by
      simp [value, spell, -UInt8.toNat_add, toNat_digit]
    have hnumber : number (ds ++ [d]) = d + 10 * number ds := by
      simp [number, Nat.ofDigits_cons]
    rw [hvalue, hnumber, ih, Nat.add_comm]

theorem sign_spell (ds : List (Fin 10)) : sign (spell ds) = (false, spell ds) := by
  have hdigit : ∀ (d : Fin 10) (b : UInt8), b.toNat < 48 → b ≠ 48 + UInt8.ofNat d := by
    rintro d b hb rfl
    rw [toNat_digit] at hb
    omega
  cases ds with
  | nil => rfl
  | cons d ds =>
    unfold sign
    split
    next t heq => exact absurd (List.cons.inj heq).1.symm (hdigit d 43 (by decide))
    next t heq => exact absurd (List.cons.inj heq).1.symm (hdigit d 45 (by decide))
    next => rfl

theorem sign_cases (t : Text) :
    t = "+" ++ (sign t).2 ∧ (sign t).1 = false ∨ t = "-" ++ (sign t).2 ∧ (sign t).1 = true ∨
      sign t = (false, t) := by
  unfold sign
  split
  next => exact .inl ⟨rfl, rfl⟩
  next => exact .inr (.inl ⟨rfl, rfl⟩)
  next => exact .inr (.inr rfl)

theorem denotes_iff {t : Text} {n : Int} :
    Denotes t n ↔ ∃ ds, ds ≠ [] ∧ (sign t).2 = spell ds ∧
      n = if (sign t).1 then -(number ds : Int) else number ds := by
  constructor
  · rintro (⟨h⟩ | ⟨h⟩ | ⟨h⟩)
    · rw [sign_spell]
      exact ⟨_, h, rfl, rfl⟩
    · exact ⟨_, h, rfl, rfl⟩
    · exact ⟨_, h, rfl, rfl⟩
  · rintro ⟨ds, h, hspell, rfl⟩
    rcases sign_cases t with ⟨ht, hsign⟩ | ⟨ht, hsign⟩ | ht
    · rw [hsign, ht, hspell]
      exact .plus h
    · rw [hsign, ht, hspell]
      exact .minus h
    · rw [ht] at hspell ⊢
      obtain rfl : t = spell ds := hspell
      exact .unsigned h

theorem toInt?_eq_some_iff {t : Text} {n : Int} :
    toInt? t = some n ↔ Denotes t n ∧ -wordBound ≤ n ∧ n < wordBound := by
  have hword : fits n = true ↔ -wordBound ≤ n ∧ n < wordBound := by simp [fits]
  rw [denotes_iff, ← hword]
  unfold toInt?
  dsimp only
  split
  next hbody =>
    obtain ⟨ds, hds⟩ := all_isDigit_iff.1 hbody.2
    have hne : ds ≠ [] := fun hnil => hbody.1 (by rw [hds, hnil]; rfl)
    have hunique : ∀ ds', (sign t).2 = spell ds' → number ds' = number ds := by
      intro ds' hds'
      rw [← value_spell, ← value_spell, ← hds', hds]
    rw [hds, value_spell]
    generalize hm : (if (sign t).1 = true then -(number ds : Int) else number ds) = m
    constructor
    · intro h
      split at h
      next hfits =>
        obtain rfl := Option.some.inj h
        exact ⟨⟨ds, hne, rfl, hm.symm⟩, hfits⟩
      next => cases h
    · rintro ⟨⟨ds', -, hds', rfl⟩, hfits⟩
      rw [hunique ds' (hds.trans hds'), hm] at hfits ⊢
      rw [if_pos hfits]
  next hbody =>
    refine iff_of_false (by simp) ?_
    rintro ⟨⟨ds, hne, hds, -⟩, -⟩
    exact hbody ⟨by rwa [hds, Ne, spell_eq_nil_iff], all_isDigit_iff.2 ⟨ds, hds⟩⟩

def IsPositive (t : Text) : Prop := ∃ n, Denotes t n ∧ 1 ≤ n ∧ n < wordBound

theorem isPositive_iff {t : Text} : IsPositive t ↔ ∃ n, toInt? t = some n ∧ 1 ≤ n := by
  simp only [IsPositive, toInt?_eq_some_iff]
  constructor
  · rintro ⟨n, hdenotes, hpos, hlt⟩
    have hle : -wordBound ≤ n := by
      unfold wordBound
      omega
    exact ⟨n, ⟨hdenotes, hle, hlt⟩, hpos⟩
  · rintro ⟨n, ⟨hdenotes, -, hlt⟩, hpos⟩
    exact ⟨n, hdenotes, hpos, hlt⟩

theorem exists_spell_digits (n : Nat) : ∃ ds, ds ≠ [] ∧ digits n = spell ds ∧ number ds = n := by
  have hdigit : ∀ c ∈ Nat.toDigits 10 n, 48 ≤ c.toNat ∧ c.toNat ≤ 57 := by
    intro c hc
    exact Char.isDigit_iff_toNat.1 (Nat.isDigit_of_mem_toDigits (by decide) (by decide) hc)
  have hbyte : ∀ c ∈ Nat.toDigits 10 n, c.toNat.toUInt8.toNat = c.toNat := by
    intro c hc
    have := hdigit c hc
    rw [Nat.toUInt8, UInt8.toNat_ofNat']
    omega
  have hall : (digits n).all isDigit = true := by
    rw [digits, List.all_map, List.all_eq_true]
    intro c hc
    simp only [Function.comp_apply, isDigit, Bool.and_eq_true, decide_eq_true_eq,
      UInt8.le_iff_toNat_le, hbyte c hc]
    exact hdigit c hc
  obtain ⟨ds, hds⟩ := all_isDigit_iff.1 hall
  refine ⟨ds, ?_, hds, ?_⟩
  · rw [Ne, ← spell_eq_nil_iff, ← hds, digits, List.map_eq_nil_iff]
    exact Nat.toDigits_ne_nil
  · rw [← value_spell, ← hds, value, digits, List.foldl_map]
    calc
      (Nat.toDigits 10 n).foldl (fun m c => 10 * m + (c.toNat.toUInt8.toNat - 48)) 0 =
          Nat.ofDigitChars 10 (Nat.toDigits 10 n) 0 := by
        rw [Nat.ofDigitChars_eq_foldl]
        exact List.foldl_ext _ _ _ fun m c hc => by rw [hbyte c hc]; rfl
      _ = n := Nat.ofDigitChars_ten_toDigits

theorem denotes_ofInt (n : Int) : Denotes (ofInt n) n := by
  cases n with
  | ofNat n =>
    obtain ⟨ds, hne, hds, hn⟩ := exists_spell_digits n
    rw [ofInt, hds, ← hn]
    exact .unsigned hne
  | negSucc n =>
    obtain ⟨ds, hne, hds, hn⟩ := exists_spell_digits (n + 1)
    rw [ofInt, hds, Int.negSucc_eq, ← Int.natCast_succ, Nat.succ_eq_add_one, ← hn]
    exact .minus hne

end Tangle.Decimal
