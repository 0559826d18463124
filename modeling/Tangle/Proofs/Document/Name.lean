import Tangle.Document.Lexer
import Tangle.Proofs.Expansion.Lookup
import Mathlib.Data.List.TakeWhile

namespace Tangle

namespace Attributes

def Short (attrs : Attributes) : Prop :=
  ∀ key value, (key, value) ∈ attrs → key ≠ "file" → Text.colon ∉ value

theorem colon_notMem_ofGroup? {group key value : Text} (h : ofGroup? group = some (key, value))
    (hkey : key ≠ "file") : Text.colon ∉ value := by
  unfold ofGroup? at h
  split at h
  next => simp at h
  next rest _ =>
    dsimp only at h
    split at h
    next => simp at h
    next =>
      split at h
      next hfile =>
        simp only [Option.some.injEq, Prod.mk.injEq] at h
        exact absurd (h.1.symm.trans hfile) hkey
      next =>
        simp only [Option.some.injEq, Prod.mk.injEq] at h
        rw [← h.2]
        intro hcolon
        have hmem := (Text.trim_infix _).subset hcolon
        simpa using List.mem_takeWhile_imp hmem

theorem forall_ofLine {P : Text → Text → Prop} {line : Text}
    (h : ∀ group ∈ Fence.groups line, ∀ key value, ofGroup? group = some (key, value) → P key value)
    (key value : Text) (hmem : (key, value) ∈ ofLine line) : P key value := by
  have hpairs : ∀ p ∈ (Fence.groups line).filterMap ofGroup?, P p.1 p.2 := by
    intro p hp
    obtain ⟨group, hgroup, heq⟩ := List.mem_filterMap.1 hp
    exact h group hgroup p.1 p.2 heq
  have hattrs : ∀ p ∈ ([] : Attributes), P p.1 p.2 := by simp
  unfold ofLine at hmem
  generalize (Fence.groups line).filterMap ofGroup? = pairs at hpairs hmem
  generalize ([] : Attributes) = attrs at hattrs hmem
  induction pairs generalizing attrs with
  | nil => exact hattrs _ hmem
  | cons p pairs ih =>
    obtain ⟨hp, hpairs⟩ := List.forall_mem_cons.1 hpairs
    apply ih hpairs _ _ hmem
    exact List.forall_mem_cons.2 ⟨hp, fun q hq => hattrs q (List.mem_of_mem_filter hq)⟩

theorem short_ofLine (line : Text) : (ofLine line).Short :=
  forall_ofLine fun _ _ _ _ => colon_notMem_ofGroup?

theorem mem_of_get_ne_nil {attrs : Attributes} {key : Text} (h : attrs.get key ≠ []) :
    (key, attrs.get key) ∈ attrs := by
  unfold get at h ⊢
  cases hvalue : attrs.lookup key with
  | none => simp [hvalue] at h
  | some value =>
    obtain ⟨before, after, hattrs, -⟩ := List.lookup_eq_some_iff.1 hvalue
    simp [hattrs]

theorem Short.colon_notMem_get {attrs : Attributes} (h : attrs.Short) {key : Text}
    (hkey : key ≠ "file") : Text.colon ∉ attrs.get key := by
  by_cases hget : attrs.get key = []
  · simp [hget]
  · exact h key _ (mem_of_get_ne_nil hget) hkey

theorem exists_trim_of_ofGroup? {group key value : Text} (h : ofGroup? group = some (key, value)) :
    ∃ part, part ⊆ group ∧ value = part.trim := by
  unfold ofGroup? at h
  split at h
  next => simp at h
  next key' rest hcut =>
    have hrest : rest ⊆ group := by
      intro b hb
      apply List.mem_of_mem_drop
      rw [Text.cutByte_eq_some hcut]
      exact List.mem_append_right _ (List.mem_cons_of_mem _ hb)
    dsimp only at h
    split at h
    next => simp at h
    next =>
      split at h
      next =>
        obtain ⟨-, rfl⟩ := Prod.mk.inj (Option.some.inj h)
        exact ⟨rest, hrest, rfl⟩
      next =>
        obtain ⟨-, rfl⟩ := Prod.mk.inj (Option.some.inj h)
        exact ⟨_, List.Subset.trans (List.takeWhile_subset _) hrest, rfl⟩

end Attributes

theorem Fence.subset_of_mem_groups {line group : Text} (h : group ∈ groups line) : group ⊆ line := by
  have hsplit : ∀ before t, (splitGroups before t).1 ⊆ t ∧ ∀ g ∈ (splitGroups before t).2, g ⊆ t := by
    intro before t
    induction t generalizing before with
    | nil => simp [splitGroups]
    | cons b t ih =>
      obtain ⟨hlead, hgroups⟩ := ih (some b)
      simp only [splitGroups]
      split
      next =>
        refine ⟨List.nil_subset _, List.forall_mem_cons.2 ⟨List.cons_subset_cons b hlead, ?_⟩⟩
        exact fun g hg => List.subset_cons_of_subset b (hgroups g hg)
      next =>
        exact ⟨List.cons_subset_cons b hlead,
          fun g hg => List.subset_cons_of_subset b (hgroups g hg)⟩
  exact (hsplit none line).2 group h

structure IsName (name : Text) : Prop where
  ne_nil : name ≠ []
  lf_notMem : Text.lf ∉ name
  isBlank1_head : ∀ b, name.head? = some b → Text.isBlank1 b = false
  isBlank1_last : ∀ b, name.getLast? = some b → Text.isBlank1 b = false

theorem isName_get {line key : Text} (hline : Text.lf ∉ line)
    (h : (Attributes.ofLine line).get key ≠ []) : IsName ((Attributes.ofLine line).get key) := by
  obtain ⟨part, hpart, hname⟩ := Attributes.forall_ofLine
    (P := fun _ value => ∃ part, part ⊆ line ∧ value = part.trim)
    (fun group hgroup key value hvalue =>
      (Attributes.exists_trim_of_ofGroup? hvalue).imp fun part hpart =>
        ⟨List.Subset.trans hpart.1 (Fence.subset_of_mem_groups hgroup), hpart.2⟩)
    key _ (Attributes.mem_of_get_ne_nil h)
  rw [hname] at h ⊢
  exact ⟨h, fun hlf => hline (hpart ((Text.trim_infix part).subset hlf)),
    fun _ => Text.isBlank1_head?_trim, fun _ => Text.isBlank1_getLast?_trim⟩

abbrev Lexed.store (found : Lexed) : Store := ⟨found.blocks⟩

theorem Lexed.colonFree_append {a b : Lexed} (ha : a.store.ColonFree) (hb : b.store.ColonFree) :
    (a ++ b).store.ColonFree := by
  intro block hmem
  cases List.mem_append.1 hmem with
  | inl h => exact ha block h
  | inr h => exact hb block h

theorem Lexed.colonFree_block {b : Block}
    (h : b.kind = .code ∨ b.kind = .reference → Text.colon ∉ b.name?.getD []) :
    (Lexed.block b).store.ColonFree := by
  intro b' hmem
  rw [List.mem_singleton.1 hmem]
  exact h

namespace Lexer

theorem colonFree_problem (o : Origin) (line : Nat) (message : Text) :
    (problem o line message).store.ColonFree := by
  intro b hmem
  cases hmem

theorem colonFree_requiring (o : Origin) (line : Nat) (type key value : Text) {found : Lexed}
    (h : found.store.ColonFree) : (requiring o line type key value found).store.ColonFree := by
  unfold requiring
  split
  next => exact colonFree_problem o line _
  next => exact h

theorem colonFree_withRef (o : Origin) (line : Nat) (type file body : Text) {found : Ref → Lexed}
    (h : ∀ ref, (found ref).store.ColonFree) :
    (withRef o line type file body found).store.ColonFree := by
  unfold withRef
  split
  next => exact colonFree_problem o line _
  next ref _ =>
    dsimp only
    generalize (if ref.path = [] then { ref with path := file } else ref) = ref
    split
    next => exact colonFree_problem o line _
    next => exact h ref

theorem colonFree_literate (o : Origin) {attrs : Attributes} (h : attrs.Short) (r : Region)
    (line : Nat) : (literate o attrs r line).store.ColonFree := by
  have hname : Text.colon ∉ attrs.get "name" := h.colon_notMem_get (by decide)
  unfold literate
  dsimp only
  split_ifs
  case pos =>
    apply colonFree_requiring
    exact Lexed.colonFree_block fun _ => hname
  case pos =>
    apply colonFree_requiring
    exact Lexed.colonFree_block (by simp [Block.kind])
  case pos =>
    apply colonFree_requiring
    apply colonFree_requiring
    exact Lexed.colonFree_block (by simp [Block.kind])
  case pos =>
    apply colonFree_requiring
    exact Lexed.colonFree_block (by simp [Block.kind])
  case pos =>
    apply colonFree_withRef
    intro ref
    exact Lexed.colonFree_block (by simp [Block.kind])
  case pos =>
    apply colonFree_requiring
    apply colonFree_withRef
    intro ref
    exact Lexed.colonFree_block fun _ => hname
  case pos => exact colonFree_problem o line _
  case neg => exact colonFree_problem o line _

theorem colonFree_step (o : Origin) (state : State) (n offset : Nat) (raw : Text) :
    (step o state n offset raw).2.store.ColonFree := by
  have hempty : Lexed.empty.store.ColonFree := by
    intro b hmem
    cases hmem
  have hspan : ∀ s, (Lexed.span s).store.ColonFree := by
    intro s b hmem
    cases hmem
  cases state with
  | outside =>
    simp only [step]
    split
    next => exact hempty
    next =>
      split
      next => exact hempty
      next =>
        split
        next => exact Lexed.colonFree_block (by simp [Block.kind])
        next => exact hempty
  | fence opening start startByte body =>
    simp only [step]
    split
    next =>
      split
      next =>
        apply Lexed.colonFree_append (hspan _)
        exact colonFree_literate o (Attributes.short_ofLine opening) _ start
      next => exact hspan _
    next => exact hempty
  | custom name start startByte body =>
    simp only [step]
    split
    next => exact Lexed.colonFree_append (hspan _) (Lexed.colonFree_block (by simp [Block.kind]))
    next => exact hempty

theorem colonFree_run (o : Origin) (state : State) (n offset : Nat) (lines : List Text) :
    (run o state n offset lines).store.ColonFree := by
  induction lines generalizing state n offset with
  | nil =>
    cases state with
    | outside => exact fun b hmem => nomatch hmem
    | fence _ line _ _ => exact colonFree_problem o line _
    | custom _ line _ _ => exact colonFree_problem o line _
  | cons raw rest ih =>
    exact Lexed.colonFree_append (colonFree_step o state n offset raw) (ih _ _ _)

end Lexer

theorem colonFree_lex (source relDir text : Text) : (lex source relDir text).store.ColonFree :=
  Lexer.colonFree_run _ _ _ _ _

end Tangle
