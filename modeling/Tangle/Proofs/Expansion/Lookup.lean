import Tangle.Expansion.Basic
import Tangle.Proofs.Block.Index
import Tangle.Proofs.Text.Lines
import Tangle.Proofs.Text.Parts

namespace Tangle

theorem Kind.colon_notMem_name (k : Kind) : Text.colon ∉ k.name := by
  cases k <;> decide

namespace Store

variable {s : Store}

def ColonFree (s : Store) : Prop :=
  ∀ b ∈ s.blocks, b.kind = .code ∨ b.kind = .reference → Text.colon ∉ b.name?.getD []

instance : Decidable s.ColonFree := inferInstanceAs (Decidable (∀ b ∈ s.blocks, _))

end Store

namespace Expansion

theorem Frame.eq_of_key_ofBlock {a b : Block} (ha : Text.colon ∉ a.name?.getD [])
    (hb : Text.colon ∉ b.name?.getD []) (h : (ofBlock a).key = (ofBlock b).key) :
    a.kind = b.kind ∧ a.region.source = b.region.source ∧ a.name?.getD [] = b.name?.getD [] := by
  have hcolon : Text.ofString ":" = [Text.colon] := by decide
  simp only [ofBlock, hcolon, List.append_assoc, List.cons_append, List.nil_append] at h
  have hfirst := congrArg (Text.cutByte Text.colon) h
  rw [Text.cutByte_append a.kind.colon_notMem_name, Text.cutByte_append b.kind.colon_notMem_name]
    at hfirst
  obtain ⟨hkind, hrest⟩ := Prod.mk.inj (Option.some.inj hfirst)
  have hlast := congrArg (Text.cutLast Text.colon) hrest
  rw [Text.cutLast_append ha, Text.cutLast_append hb] at hlast
  obtain ⟨hsource, hname⟩ := Prod.mk.inj (Option.some.inj hlast)
  exact ⟨Kind.name_injective hkind, hsource, hname⟩

namespace Context

variable {ctx : Context} {i j : ctx.store.Id}

theorem find?_mk (ctx : Context) (options : Options) (fetch : Ref → Except Extract.Failure Text)
    (name : Text) : (mk ctx.store options ctx.base fetch).find? name = ctx.find? name := by
  have hqualified : (mk ctx.store options ctx.base fetch).findQualified? name =
      ctx.findQualified? name := rfl
  unfold find?
  rw [hqualified]
  cases ctx.findQualified? name <;> rfl

def Found (ctx : Context) (i : ctx.store.Id) : Prop := ∃ name, ctx.find? name = some i

abbrev frame (ctx : Context) (i : ctx.store.Id) : Frame := .ofBlock (ctx.store.get i)

theorem exists_findFrom? {name : Text} (h : ctx.find? name = some i) :
    ∃ k ∈ candidates, ∃ short accepts,
      ctx.store.findFrom? k short accepts = some i ∧ short ⊆ name := by
  unfold find? at h
  split at h
  next l hl =>
    obtain rfl := Option.some.inj h
    unfold findQualified? at hl
    split at hl
    next => simp at hl
    next source short hcut =>
      split at hl
      next => simp at hl
      next =>
        obtain ⟨k, hk, hfind⟩ := List.exists_of_findSome?_eq_some hl
        refine ⟨k, hk, _, _, hfind, fun b hb => ?_⟩
        have hshort : b ∈ short := (Text.trim_infix short).subset hb
        simp [Text.cutLast_eq_some hcut, hshort]
  next =>
    obtain ⟨k, hk, hfind⟩ := List.exists_of_findSome?_eq_some h
    rw [Store.find?_eq_findFrom?] at hfind
    exact ⟨k, hk, _, _, hfind, List.Subset.refl _⟩

theorem name_subset_of_find? {name : Text} (h : ctx.find? name = some i) :
    (ctx.store.get i).name?.getD [] ⊆ name := by
  obtain ⟨k, -, short, accepts, hfind, hshort⟩ := exists_findFrom? h
  have hname : (ctx.store.get i).name? = some short := by
    have := Store.of_last?_eq_some hfind
    simp_all
  rwa [hname]

theorem Found.exists_findFrom? (h : ctx.Found i) :
    ∃ k ∈ candidates, ∃ name accepts, ctx.store.findFrom? k name accepts = some i := by
  obtain ⟨name, h⟩ := h
  obtain ⟨k, hk, short, accepts, hfind, -⟩ := Context.exists_findFrom? h
  exact ⟨k, hk, short, accepts, hfind⟩

theorem Found.kind_eq (h : ctx.Found i) :
    (ctx.store.get i).kind = .code ∨ (ctx.store.get i).kind = .reference := by
  obtain ⟨k, hk, name, accepts, hfind⟩ := h.exists_findFrom?
  have := Store.of_last?_eq_some hfind
  simp_all [candidates, or_comm]

theorem Found.colon_notMem_name (h : ctx.Found i) (hstore : ctx.store.ColonFree) :
    Text.colon ∉ (ctx.store.get i).name?.getD [] :=
  hstore _ (List.get_mem ..) h.kind_eq

theorem Found.le (h : ctx.Found i) (hkind : (ctx.store.get j).kind = (ctx.store.get i).kind)
    (hsource : (ctx.store.get j).region.source = (ctx.store.get i).region.source)
    (hname : (ctx.store.get j).name? = (ctx.store.get i).name?) : j ≤ i := by
  obtain ⟨k, -, name, accepts, hfind⟩ := h.exists_findFrom?
  refine Store.le_of_last?_eq_some hfind ?_
  have := Store.of_last?_eq_some hfind
  simpa [hkind, hsource, hname] using this

theorem Found.name?_eq (h : ctx.Found i) :
    (ctx.store.get i).name? = some ((ctx.store.get i).name?.getD []) := by
  obtain ⟨k, -, name, accepts, hfind⟩ := h.exists_findFrom?
  have := Store.of_last?_eq_some hfind
  simp_all

theorem Found.eq_of_key (hstore : ctx.store.ColonFree) (hi : ctx.Found i) (hj : ctx.Found j)
    (h : (ctx.frame i).key = (ctx.frame j).key) : i = j := by
  obtain ⟨hkind, hsource, hname⟩ :=
    Frame.eq_of_key_ofBlock (hi.colon_notMem_name hstore) (hj.colon_notMem_name hstore) h
  have hname? : (ctx.store.get i).name? = (ctx.store.get j).name? := by
    rw [hi.name?_eq, hj.name?_eq, hname]
  exact le_antisymm (hj.le hkind hsource hname?) (hi.le hkind.symm hsource.symm hname?.symm)

end Context

end Expansion

end Tangle
