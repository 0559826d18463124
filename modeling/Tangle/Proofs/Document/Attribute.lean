import Tangle.Document.Lexer
import Tangle.Proofs.Text.Lines
import Tangle.Proofs.Text.Parts
import Tangle.Proofs.Text.Trim
import Mathlib.Tactic.MkIffOfInductiveProp

namespace Tangle

open Text

namespace Fence

def wordBreaks : List UInt8 := [space, tab, backtick]

def Unbroken (t : Text) : Prop := ∀ b ∈ wordBreaks, t.contains (b :: literateMark) = false

instance (t : Text) : Decidable (Unbroken t) :=
  List.decidableBAll (fun b => t.contains (b :: literateMark) = false) wordBreaks

section Groups

variable {before : Option UInt8} {t u : Text}

theorem startsGroup_iff :
    startsGroup before t = true ↔ literateMark <+: t ∧ ∀ b, before = some b → b ∈ wordBreaks := by
  cases before <;> simp [startsGroup, startsWith, wordBreaks, or_assoc]

theorem unbroken_cons {b : UInt8} :
    Unbroken (b :: t) ↔ startsGroup (some b) t = false ∧ Unbroken t := by
  simp only [Unbroken, ← Bool.not_eq_true, contains_iff_isInfix, startsGroup_iff,
    List.infix_cons_iff (a := b), List.cons_prefix_cons]
  grind

theorem splitGroups_snd_eq_nil_iff :
    (splitGroups before t).2 = [] ↔ startsGroup before t = false ∧ Unbroken t := by
  induction t generalizing before with
  | nil =>
    refine iff_of_true rfl ⟨?_, by decide⟩
    cases before <;> rfl
  | cons b t ih =>
    rw [unbroken_cons, ← ih, splitGroups]
    cases startsGroup before (b :: t) <;> simp

theorem groupStartsFrom_eq_nil_iff {offset : Nat} :
    groupStartsFrom before offset t = [] ↔ (splitGroups before t).2 = [] := by
  induction t generalizing before offset with
  | nil => exact iff_of_true rfl rfl
  | cons b t ih =>
    rw [groupStartsFrom, splitGroups]
    cases startsGroup before (b :: t) <;> simp [ih]

theorem groupStarts_eq_nil_iff {line : Text} : groupStarts line = [] ↔ groups line = [] :=
  groupStartsFrom_eq_nil_iff

theorem startsGroup_append (hu : ∀ b, u.head? = some b → b ∉ literateMark)
    (h : startsGroup before t = false) : startsGroup before (t ++ u) = false := by
  rw [← Bool.not_eq_true, startsGroup_iff] at h ⊢
  cases u with
  | nil => rwa [List.append_nil]
  | cons b u =>
    exact fun hstart => h ⟨prefix_of_prefix_append_cons (hu b rfl) hstart.1, hstart.2⟩

theorem splitGroups_append (hu : ∀ b, u.head? = some b → b ∉ literateMark)
    (h : (splitGroups before t).2 = []) :
    splitGroups before (t ++ u) = (t ++ (splitGroups none u).1, (splitGroups none u).2) := by
  induction t generalizing before with
  | nil =>
    have hnone : ∀ before, startsGroup before u = false := fun before =>
      startsGroup_append (t := []) hu (by cases before <;> rfl)
    cases u with
    | nil => rfl
    | cons b u => simp only [List.nil_append, splitGroups, hnone]
  | cons b t ih =>
    rw [splitGroups_snd_eq_nil_iff, unbroken_cons, ← splitGroups_snd_eq_nil_iff] at h
    have hstart := startsGroup_append hu h.1
    rw [List.cons_append] at hstart ⊢
    rw [splitGroups, ih h.2, hstart]
    rfl

end Groups

def writeGroups : List (Text × Text) → Text
  | [] => []
  | (key, value) :: attrs =>
    space :: (literateMark ++ (key ++ colon :: value) ++ writeGroups attrs)

def write (language : Text) (attrs : List (Text × Text)) : Text :=
  Lexer.fenceMark ++ language ++ writeGroups attrs

/-- What can be written as a group. Only the value of `file` may have colons. -/
@[mk_iff] structure Writable (key value : Text) : Prop where
  key_ne_nil : key ≠ []
  trim_key : key.trim = key
  trim_value : value.trim = value
  unbroken_key : Unbroken key
  unbroken_value : Unbroken value
  colon_notMem_key : colon ∉ key
  colon_notMem_value : key ≠ "file" → colon ∉ value

instance (key value : Text) : Decidable (Writable key value) :=
  decidable_of_iff' _ (writable_iff key value)

namespace Writable

variable {key value : Text}

theorem ofGroup?_eq (h : Writable key value) {gap : Text} (hgap : gap = [] ∨ gap = [space]) :
    Attributes.ofGroup? (literateMark ++ (key ++ colon :: (value ++ gap))) = some (key, value) := by
  have htrim : (value ++ gap).trim = value := by
    rcases hgap with rfl | rfl
    · rw [List.append_nil, h.trim_value]
    · rw [trim_append_space, h.trim_value]
  rw [Attributes.ofGroup?, List.drop_left, cutByte_append h.colon_notMem_key]
  dsimp only
  rw [h.trim_key, if_neg h.key_ne_nil]
  split
  next => rw [htrim]
  next hfile =>
    have hcolon : ∀ b ∈ value ++ gap, (b ≠ colon : Bool) = true := by
      have hgap' : colon ∉ gap := by rcases hgap with rfl | rfl <;> decide
      have hvalue := h.colon_notMem_value hfile
      intro b hb
      rw [decide_eq_true_eq]
      rintro rfl
      exact (List.mem_append.1 hb).elim hvalue hgap'
    rw [List.takeWhile_eq_self_iff.2 hcolon, htrim]

theorem unbroken (h : Writable key value) : Unbroken (key ++ colon :: value) := by
  intro b hb
  rw [← Bool.not_eq_true, contains_iff_isInfix]
  intro hinfix
  have hcolon : ∀ b ∈ wordBreaks, colon ∉ b :: literateMark := by decide +kernel
  rcases infix_of_infix_append_cons (hcolon b hb) hinfix with hkey | hvalue
  · simpa [contains_iff_isInfix.2 hkey] using h.unbroken_key b hb
  · simpa [contains_iff_isInfix.2 hvalue] using h.unbroken_value b hb

end Writable

theorem splitGroups_literateMark {t u : Text} (ht : Unbroken t)
    (hu : ∀ b, u.head? = some b → b ∉ literateMark) :
    splitGroups (some space) (literateMark ++ t ++ u) =
      ([], (literateMark ++ t ++ (splitGroups none u).1) :: (splitGroups none u).2) := by
  have hrest : (splitGroups (some 108) ([105, 116, 45] ++ t)).2 = [] := by
    simp only [splitGroups_snd_eq_nil_iff, List.cons_append, List.nil_append, unbroken_cons]
    refine ⟨rfl, rfl, rfl, ?_, ht⟩
    simp [startsGroup, space, tab, backtick]
  have hsplit := splitGroups_append hu hrest
  simp only [List.cons_append, List.nil_append] at hsplit
  change splitGroups (some space) (108 :: 105 :: 116 :: 45 :: (t ++ u)) = _
  rw [splitGroups, hsplit]
  rfl

theorem head?_writeGroups (attrs : List (Text × Text)) (b : UInt8)
    (h : (writeGroups attrs).head? = some b) : b ∉ literateMark := by
  cases attrs with
  | nil => cases h
  | cons p attrs =>
    obtain rfl : space = b := Option.some.inj h
    decide

theorem exists_splitGroups_writeGroups {attrs : List (Text × Text)}
    (h : ∀ p ∈ attrs, Writable p.1 p.2) :
    ∃ gap groups, splitGroups none (writeGroups attrs) = (gap, groups) ∧
      (gap = [] ∨ gap = [space]) ∧ groups.filterMap Attributes.ofGroup? = attrs := by
  induction attrs with
  | nil => exact ⟨[], [], rfl, .inl rfl, rfl⟩
  | cons p attrs ih =>
    obtain ⟨key, value⟩ := p
    obtain ⟨hp, hattrs⟩ := List.forall_mem_cons.1 h
    obtain ⟨gap, groups, hsplit, hgap, hgroups⟩ := ih hattrs
    have hgroup := splitGroups_literateMark hp.unbroken (head?_writeGroups attrs)
    -- The space before the next group still belongs to this one.
    rw [hsplit] at hgroup
    refine ⟨[space], (literateMark ++ (key ++ colon :: (value ++ gap))) :: groups, ?_, .inr rfl, ?_⟩
    · have hspace : ∀ t, startsGroup none (space :: t) = false := fun _ => rfl
      rw [writeGroups, splitGroups, hgroup, hspace]
      simp
    · rw [List.filterMap_cons_some (hp.ofGroup?_eq hgap), hgroups]

theorem filterMap_groups_write {language : Text} {attrs : List (Text × Text)}
    (hlanguage : Unbroken language) (hstart : language.startsWith literateMark = false)
    (hattrs : ∀ p ∈ attrs, Writable p.1 p.2) :
    (groups (write language attrs)).filterMap Attributes.ofGroup? = attrs := by
  have hlead : (splitGroups none (Lexer.fenceMark ++ language)).2 = [] := by
    change (splitGroups none (backtick :: backtick :: backtick :: language)).2 = []
    simp only [splitGroups_snd_eq_nil_iff, unbroken_cons]
    refine ⟨rfl, rfl, rfl, ?_, hlanguage⟩
    rw [startsGroup, hstart, Bool.false_and]
  obtain ⟨gap, groups, hsplit, -, hgroups⟩ := exists_splitGroups_writeGroups hattrs
  rw [Fence.groups, write, splitGroups_append (head?_writeGroups attrs) hlead, hsplit, hgroups]

end Fence

namespace Attributes

theorem lookup_cons_ite (p : Text × Text) (attrs : List (Text × Text)) (key : Text) :
    (p :: attrs).lookup key = if key = p.1 then some p.2 else attrs.lookup key := by
  rw [List.lookup_cons]
  by_cases h : key = p.1
  · simp [h]
  · rw [if_neg h, beq_false_of_ne h]

theorem lookup_set (attrs : Attributes) (key value other : Text) :
    (attrs.set key value).lookup other = if other = key then some value else attrs.lookup other := by
  rw [set, lookup_cons_ite]
  refine if_ctx_congr Iff.rfl (fun _ => rfl) fun h => ?_
  induction attrs with
  | nil => rfl
  | cons p attrs ih => grind

theorem lookup_foldl_set (pairs : List (Text × Text)) (attrs : Attributes) (key : Text) :
    (pairs.foldl (fun attrs (key, value) => attrs.set key value) attrs).lookup key =
      (pairs.reverse.lookup key).or (attrs.lookup key) := by
  induction pairs generalizing attrs with
  | nil => rfl
  | cons p pairs ih =>
    rw [List.foldl_cons, ih, lookup_set, List.reverse_cons, List.lookup_append, Option.or_assoc,
      lookup_cons_ite]
    congr 1
    split <;> rfl

theorem nodup_foldl_set (pairs : List (Text × Text)) {attrs : Attributes}
    (h : (attrs.map Prod.fst).Nodup) :
    ((pairs.foldl (fun attrs (key, value) => attrs.set key value) attrs).map Prod.fst).Nodup := by
  induction pairs generalizing attrs with
  | nil => exact h
  | cons p pairs ih =>
    refine ih (List.nodup_cons.2 ⟨?_, ?_⟩)
    · simp
    · exact h.sublist (List.filter_sublist.map _)

theorem nodup_ofLine (line : Text) : ((ofLine line).map Prod.fst).Nodup :=
  nodup_foldl_set _ .nil

/-- What is written for a language and attributes is read as these attributes. Where a key occurs
more than once, the last value counts. -/
theorem ofLine_write {language : Text} {attrs : List (Text × Text)}
    (hlanguage : Fence.Unbroken language) (hstart : language.startsWith literateMark = false)
    (hattrs : ∀ p ∈ attrs, Fence.Writable p.1 p.2) :
    (∀ key, (ofLine (Fence.write language attrs)).lookup key = attrs.reverse.lookup key) ∧
      ((ofLine (Fence.write language attrs)).map Prod.fst).Nodup := by
  refine ⟨fun key => ?_, nodup_ofLine _⟩
  rw [ofLine, Fence.filterMap_groups_write hlanguage hstart hattrs, lookup_foldl_set]
  exact Option.or_none

def script : List (Text × Text) :=
  [("type", "code"), ("file", "C:\\my dir/lit-x.js"), ("lit-", "a `b"), ("type", "output")]

theorem ofLine_write_script :
    Fence.write "c-lit-d" script =
        "```c-lit-d lit-type:code lit-file:C:\\my dir/lit-x.js lit-lit-:a `b lit-type:output" ∧
      (∀ p ∈ script, Fence.Writable p.1 p.2) ∧
      List.lookup (ofString "type") (ofLine (Fence.write "c-lit-d" script)) =
        some (ofString "output") ∧
      List.lookup (ofString "name") (ofLine (Fence.write "c-lit-d" script)) = none := by
  have hlanguage : Fence.Unbroken "c-lit-d" := by decide +kernel
  have hstart : startsWith "c-lit-d" literateMark = false := by decide +kernel
  have hattrs : ∀ p ∈ script, Fence.Writable p.1 p.2 := by decide +kernel
  obtain ⟨hlookup, -⟩ := ofLine_write hlanguage hstart hattrs
  refine ⟨by decide +kernel, hattrs, ?_, ?_⟩
  · rw [hlookup]
    decide +kernel
  · rw [hlookup]
    decide +kernel

end Attributes

end Tangle
