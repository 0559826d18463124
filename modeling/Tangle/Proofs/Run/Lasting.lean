import Tangle.Proofs.Document.Unplaced
import Tangle.Proofs.Expansion.Embedding
import Tangle.Run.Basic

namespace Tangle

open Text

namespace Config

theorem applyLines_line (source : Text) (o : Options) (n m : Int) (lines : List Text) :
    (applyLines source o n lines).1 = (applyLines source o m lines).1 ∧
      (applyLines source o n lines).2.map (·.cause) =
        (applyLines source o m lines).2.map (·.cause) := by
  induction lines generalizing o n m with
  | nil => exact ⟨rfl, rfl⟩
  | cons line lines ih =>
    unfold applyLines
    cases applyLine o line with
    | ok o => exact ih o (n + 1) (m + 1)
    | error cause =>
      obtain ⟨hoptions, hcauses⟩ := ih o (n + 1) (m + 1)
      exact ⟨hoptions, congrArg (cause :: ·) hcauses⟩

theorem applyBlock_unplaced (o : Options) (b : Config) :
    (applyBlock o b.unplaced).1 = (applyBlock o b).1 ∧
      (applyBlock o b.unplaced).2.map (·.cause) = (applyBlock o b).2.map (·.cause) := by
  have hname : b.unplaced.name = b.name := rfl
  unfold applyBlock
  rw [hname]
  split_ifs
  · exact ⟨rfl, rfl⟩
  · exact ⟨rfl, rfl⟩
  · exact applyLines_line ..
  · exact ⟨rfl, rfl⟩

theorem resolve_unplaced (o : Options) (bs : List Config) :
    (resolve o (bs.map Config.unplaced)).1 = (resolve o bs).1 ∧
      (resolve o (bs.map Config.unplaced)).2.map (·.cause) =
        (resolve o bs).2.map (·.cause) := by
  induction bs generalizing o with
  | nil => exact ⟨rfl, rfl⟩
  | cons b bs ih =>
    obtain ⟨hoptions, hcauses⟩ := applyBlock_unplaced o b
    obtain ⟨hrest, hmore⟩ := ih (applyBlock o b).1
    simp only [List.map_cons, resolve, List.map_append, hoptions, hcauses, hrest, hmore, and_self]

theorem applyLine_dryRun (o : Options) (b : Bool) (line : Text) :
    applyLine { o with dryRun := b } line = (applyLine o line).map ({ · with dryRun := b }) := by
  unfold applyLine
  cases Directive.ofLine? line with
  | none => rfl
  | some d =>
    dsimp only
    split_ifs
    · rfl
    · rfl
    · cases Policy.read d.value <;> rfl
    · cases Decimal.toInt? d.value with
      | none => rfl
      | some n =>
        dsimp only
        split_ifs <;> rfl
    · rfl

theorem applyLines_dryRun (source : Text) (o : Options) (b : Bool) (n : Int) (lines : List Text) :
    applyLines source { o with dryRun := b } n lines =
      ({ (applyLines source o n lines).1 with dryRun := b }, (applyLines source o n lines).2) := by
  induction lines generalizing o n with
  | nil => rfl
  | cons line lines ih =>
    unfold applyLines
    rw [applyLine_dryRun]
    cases applyLine o line with
    | ok o' => exact ih o' (n + 1)
    | error cause =>
      dsimp only [Except.map]
      rw [ih]

theorem resolve_dryRun (o : Options) (b : Bool) (bs : List Config) :
    resolve { o with dryRun := b } bs =
      ({ (resolve o bs).1 with dryRun := b }, (resolve o bs).2) := by
  have hblock : ∀ o c, applyBlock { o with dryRun := b } c =
      ({ (applyBlock o c).1 with dryRun := b }, (applyBlock o c).2) := by
    intro o c
    unfold applyBlock
    split_ifs
    · rfl
    · rfl
    · exact applyLines_dryRun ..
    · rfl
  induction bs generalizing o with
  | nil => rfl
  | cons c bs ih => simp only [resolve, hblock, ih]

theorem dryRun_resolve (o : Options) (bs : List Config) : (resolve o bs).1.dryRun = o.dryRun :=
  congrArg (·.1.dryRun) (resolve_dryRun o o.dryRun bs)

end Config

namespace Selection

variable (base : Base) (outputs : List Output)

theorem apply_unplaced (included ignored : List Text) :
    apply base included ignored (outputs.map Output.unplaced) =
      (apply base included ignored outputs).map Output.unplaced := by
  rw [apply, List.filter_map]
  rfl

theorem narrow_unplaced (target pattern : Text) :
    narrow base target pattern (outputs.map Output.unplaced) =
      (narrow base target pattern outputs).map (List.map Output.unplaced) := by
  unfold narrow
  split
  next =>
    rw [List.filter_map]
    rfl
  next =>
    cases Regex.parse pattern with
    | error e => rfl
    | ok r =>
      dsimp only
      rw [List.filter_map]
      rfl

end Selection

namespace Store

variable {s s' : Store}

def lasting (s : Store) : List Block := (s.blocks.map Block.unplaced).filter Block.lasts

theorem filterMap_lasting {α : Type} {f : Block → Option α}
    (hf : ∀ b : Block, b.lasts = false → f b = none) (s : Store) :
    s.lasting.filterMap f = s.unplaced.blocks.filterMap f := by
  rw [lasting, List.filterMap_filter]
  apply List.filterMap_congr
  intro b _
  cases h : b.lasts with
  | true => rfl
  | false => exact (hf b h).symm

theorem outputs_lasting (s : Store) :
    outputs ⟨s.lasting⟩ = s.outputs.map Output.unplaced := by
  rw [← outputs_unplaced]
  exact filterMap_lasting (fun b h => by cases b <;> first | rfl | cases h) s

theorem configs_lasting (s : Store) :
    configs ⟨s.lasting⟩ = s.configs.map Config.unplaced := by
  rw [← configs_unplaced]
  exact filterMap_lasting (fun b h => by cases b <;> first | rfl | cases h) s

theorem map_get_last? (s : Store) (P : Block → Bool) :
    (s.last? P).map s.get = (s.blocks.filter P).getLast? := by
  have hblocks : (List.finRange s.size).reverse.map s.get = s.blocks.reverse := by
    rw [List.map_reverse]
    exact congrArg _ (List.map_get_finRange s.blocks)
  rw [last?, ← List.head?_reverse, ← List.filter_reverse, List.head?_filter, ← hblocks,
    List.find?_map]
  rfl

def Counterpart {s s' : Store} (i : s.Id) (i' : s'.Id) : Prop :=
  (s'.get i').unplaced = (s.get i).unplaced

variable (h : s'.lasting = s.lasting)

include h

theorem rel_last? {P : Block → Bool} (hplace : ∀ b : Block, P b.unplaced = P b)
    (hlasts : ∀ b, P b = true → b.lasts = true) :
    Option.Rel Counterpart (s.last? P) (s'.last? P) := by
  have hlasting : ∀ s : Store, (s.last? P).map (fun i => (s.get i).unplaced) =
      (s.lasting.filter P).getLast? := by
    intro s
    have hfilter : s.lasting.filter P = (s.blocks.filter P).map Block.unplaced := by
      rw [lasting, List.filter_filter, List.filter_map]
      congr 1
      apply List.filter_congr
      intro b _
      cases hb : P b <;> simp [hplace, hb, hlasts]
    rw [hfilter, List.getLast?_map, ← map_get_last?, Option.map_map]
    rfl
  have heq := (hlasting s').trans ((congrArg _ (congrArg _ h)).trans (hlasting s).symm)
  cases hi : s.last? P with
  | none =>
    cases hi' : s'.last? P with
    | none => exact .none
    | some i' => simp [hi, hi'] at heq
  | some i =>
    cases hi' : s'.last? P with
    | none => simp [hi, hi'] at heq
    | some i' =>
      rw [hi, hi'] at heq
      exact .some (Option.some.inj heq)

theorem rel_findFrom? {k : Kind} (hk : k ∈ Expansion.Context.candidates) (name : Text)
    (fromSource : Text → Bool) :
    Option.Rel Counterpart (s.findFrom? k name fromSource) (s'.findFrom? k name fromSource) := by
  refine rel_last? h (fun b => by simp) fun b hb => ?_
  simp only [Bool.and_eq_true, beq_iff_eq] at hb
  obtain ⟨⟨rfl, -⟩, -⟩ := hb
  cases b <;> first | rfl | simp [Expansion.Context.candidates, Block.kind] at hk

end Store

theorem Expansion.Context.raw_unplaced (ctx : Context) (b : Block) (session : Session ctx.store) :
    ctx.raw b.unplaced session = ctx.raw b session := by
  cases b <;> rfl

namespace Run

variable {p p' : Plan} {files files' : Files.Tree}

theorem rel_findSome? {α β γ : Type} {R : β → γ → Prop} {f : α → Option β} {f' : α → Option γ}
    {as : List α} (h : ∀ a ∈ as, Option.Rel R (f a) (f' a)) :
    Option.Rel R (as.findSome? f) (as.findSome? f') := by
  induction as with
  | nil => exact .none
  | cons a as ih =>
    rw [List.forall_mem_cons] at h
    rw [List.findSome?_cons, List.findSome?_cons]
    cases hf : f a with
    | none =>
      cases hf' : f' a with
      | none => exact ih h.2
      | some c => simp [hf, hf'] at h
    | some b =>
      cases hf' : f' a with
      | none => simp [hf, hf'] at h
      | some c =>
        rw [hf, hf'] at h
        exact h.1

/-- Plans that agree but for the places of blocks, and but for imports and pulls. -/
structure Agree (p p' : Plan) : Prop where
  options_eq : p'.options = p.options
  base_eq : p'.base = p.base
  lasting_eq : p'.store.lasting = p.store.lasting

namespace Agree

theorem refl (p : Plan) : Agree p p := ⟨rfl, rfl, rfl⟩

variable (h : Agree p p')

include h

theorem exists_reference {r : Reference} (hr : r ∈ p'.store.references) :
    ∃ r₀ ∈ p.store.references, r₀.ref = r.ref := by
  have hlasting : (Block.reference r).unplaced ∈ p'.store.lasting :=
    List.mem_filter.2 ⟨List.mem_map_of_mem (Store.mem_references.1 hr), rfl⟩
  rw [h.lasting_eq] at hlasting
  obtain ⟨b, hb, heq⟩ := List.mem_map.1 (List.mem_of_mem_filter hlasting)
  cases b with
  | reference r₀ =>
    refine ⟨r₀, Store.mem_references.2 hb, ?_⟩
    simpa [Block.unplaced, Block.mapRegion] using congrArg Reference.ref (Block.reference.inj heq)
  | _ => cases heq

theorem rel_find? (name : Text) :
    Option.Rel Store.Counterpart ((p.context files).find? name)
      ((p'.context files').find? name) := by
  have hqualified : Option.Rel Store.Counterpart ((p.context files).findQualified? name)
      ((p'.context files').findQualified? name) := by
    unfold Expansion.Context.findQualified?
    cases cutLast colon name with
    | none => exact .none
    | some parts =>
      dsimp only
      split
      next => exact .none
      next =>
        refine rel_findSome? fun k hk => ?_
        have hfrom : (p'.context files').isFrom parts.1.trim =
            (p.context files).isFrom parts.1.trim := by
          unfold Expansion.Context.isFrom Plan.context
          rw [h.base_eq]
        rw [hfrom]
        exact Store.rel_findFrom? h.lasting_eq hk _ _
  unfold Expansion.Context.find?
  cases hi : (p.context files).findQualified? name with
  | some i =>
    cases hi' : (p'.context files').findQualified? name with
    | none => simp [hi, hi'] at hqualified
    | some i' =>
      rw [hi, hi'] at hqualified
      exact hqualified
  | none =>
    cases hi' : (p'.context files').findQualified? name with
    | some i' => simp [hi, hi'] at hqualified
    | none =>
      refine rel_findSome? fun k hk => ?_
      rw [Store.find?_eq_findFrom?, Store.find?_eq_findFrom?]
      exact Store.rel_findFrom? h.lasting_eq hk _ _

theorem provenance {b b' : Block} (hb : b'.unplaced = b.unplaced) :
    (p'.context files').provenance b' (b'.name?.getD []) =
      (p.context files).provenance b (b.name?.getD []) := by
  have hsource : b'.region.source = b.region.source := by
    rw [← Block.source_unplaced, hb, Block.source_unplaced]
  have hname : b'.name? = b.name? := by
    rw [← Block.name?_unplaced, hb, Block.name?_unplaced]
  unfold Expansion.Context.provenance Plan.context
  rw [h.options_eq, h.base_eq, hsource, hname]

theorem raw_eq_ok {b b' : Block} {raw : Text} (hb : b'.unplaced = b.unplaced)
    (hread : ∀ r, b = .reference r → ∀ content,
      files.read (p.base.resolve r.ref.path) = .ok content →
      files'.read (p.base.resolve r.ref.path) = .ok content)
    (hraw : ((p.context files).raw b {}).1 = .ok raw) :
    ((p'.context files').raw b' {}).1 = .ok raw := by
  rw [← Expansion.Context.raw_unplaced] at hraw ⊢
  rw [hb]
  cases b with
  | reference r =>
    cases hold : files.read (p.base.resolve r.ref.path) with
    | error e => simp [Block.unplaced, Block.mapRegion, Expansion.Context.raw, Plan.context,
        Extract.fetch, hold] at hraw
    | ok content =>
      have hfetch : Extract.fetch files' p.base r.ref = Extract.fetch files p.base r.ref := by
        rw [Extract.fetch, Extract.fetch, hold, hread r rfl content hold]
      simp only [Block.unplaced, Block.mapRegion, Expansion.Context.raw, Plan.context, h.base_eq,
        hfetch] at hraw ⊢
      cases hpart : Extract.fetch files p.base r.ref with
      | ok text => simpa [hpart] using hraw
      | error f => cases f <;> simp_all
  | _ => exact hraw

theorem embeds (hread : ∀ r ∈ p.store.references, ∀ content,
      files.read (p.base.resolve r.ref.path) = .ok content →
      files'.read (p.base.resolve r.ref.path) = .ok content) :
    (p.context files).Embeds (p'.context files') Store.Counterpart where
  maxPasses_eq := congrArg _ h.options_eq
  unresolved_eq := congrArg _ h.options_eq
  find? := h.rel_find?
  provenance_eq _ _ hi := h.provenance hi
  rawText := by
    intro i i' raw hi hraw
    unfold Expansion.Context.rawText at hraw ⊢
    have hmem : (p.context files).store.get i ∈ p.store.blocks := List.get_mem ..
    cases hfirst : ((p.context files).raw ((p.context files).store.get i) {}).1 with
    | error f => simp [hfirst, Except.map] at hraw
    | ok text =>
      rw [hfirst] at hraw
      rw [h.raw_eq_ok hi (fun r hr => hread r (Store.mem_references.2 (hr ▸ hmem))) hfirst]
      exact hraw

end Agree

end Run

end Tangle
