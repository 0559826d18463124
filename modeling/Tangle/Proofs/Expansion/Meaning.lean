import Tangle.Proofs.Block.Index
import Tangle.Proofs.Path
import Tangle.Proofs.Text.Parts
import Tangle.Expansion.Basic

namespace Tangle

inductive Addition
  | one (b : Block)
  | all (bs : List Block)

namespace Addition

def blocks : Addition → List Block
  | one b => [b]
  | all bs => bs

def apply (s : Store) : Addition → Store
  | one b => s.add b
  | all bs => s.addAll bs

theorem blocks_apply (s : Store) (a : Addition) : (apply s a).blocks = s.blocks ++ a.blocks := by
  cases a <;> rfl

end Addition

namespace Store

def ofAdditions (additions : List Addition) : Store := additions.foldl Addition.apply .empty

theorem blocks_foldl_apply (s : Store) (additions : List Addition) :
    (additions.foldl Addition.apply s).blocks = s.blocks ++ additions.flatMap Addition.blocks := by
  induction additions generalizing s with
  | nil => simp
  | cons a additions ih =>
    rw [List.foldl_cons, ih, Addition.blocks_apply, List.append_assoc, List.flatMap_cons]

variable {s : Store} {P : Block → Prop} {i : s.Id}

/-- The last reference in `P`, or the last code in `P` when no reference is. -/
def Prefers (s : Store) (P : Block → Prop) (i : s.Id) : Prop :=
  s.IsLast (fun b => b.kind = .reference ∧ P b) i ∨
    (∀ j, (s.get j).kind = .reference → ¬ P (s.get j)) ∧
      s.IsLast (fun b => b.kind = .code ∧ P b) i

theorem findSome?_candidates {f : Kind → Option s.Id}
    (h : ∀ k i, f k = some i ↔ s.IsLast (fun b => b.kind = k ∧ P b) i) :
    Expansion.Context.candidates.findSome? f = some i ↔ s.Prefers P i := by
  have hnone : f .reference = none ↔ ∀ j, (s.get j).kind = .reference → ¬ P (s.get j) := by
    constructor
    · intro hf j hkind hj
      obtain ⟨l, hl⟩ := exists_isLast (P := fun b => b.kind = .reference ∧ P b) ⟨hkind, hj⟩
      rw [← h, hf] at hl
      cases hl
    · intro hall
      refine Option.eq_none_iff_forall_ne_some.2 fun j hj => ?_
      obtain ⟨hkind, hP⟩ := ((h _ j).1 hj).get
      exact hall j hkind hP
  rw [Prefers, ← hnone, ← h, ← h]
  cases hf : f .reference with
  | none => simp [Expansion.Context.candidates, hf]
  | some l => simp [Expansion.Context.candidates, hf]

end Store

namespace Expansion

structure Qualified (name source short : Text) : Prop where
  eq_append : name = source ++ Text.colon :: short
  colon_notMem : Text.colon ∉ short
  source_ne_nil : source ≠ []
  short_ne_nil : short ≠ []

namespace Context

variable {ctx : Context} {name : Text} {i : ctx.store.Id}

def IsIn (ctx : Context) (source short : Text) (b : Block) : Prop :=
  b.name? = some short.trim ∧ ctx.base.resolve b.region.source = ctx.base.resolve source.trim

def Means (ctx : Context) (name : Text) (i : ctx.store.Id) : Prop :=
  (∃ source short, Qualified name source short ∧ ctx.store.Prefers (ctx.IsIn source short) i) ∨
    (∀ source short, Qualified name source short →
      ∀ j, ¬ ctx.store.Prefers (ctx.IsIn source short) j) ∧
      ctx.store.Prefers (fun b => b.name? = some name) i

theorem isFrom_eq_same (h : ctx.base.path ≠ []) (source document : Text) :
    ctx.isFrom source document = ctx.base.same document source := by
  have hraw : document = source → ctx.base.resolve document = ctx.base.resolve source := by
    rintro rfl
    rfl
  have hshown : ctx.base.display document = source →
      ctx.base.resolve document = ctx.base.resolve source := by
    rintro rfl
    exact (Base.resolve_display h document).symm
  rw [Bool.eq_iff_iff]
  simp only [isFrom, Base.same, Bool.or_eq_true, beq_iff_eq]
  exact ⟨fun h => h.elim (fun h => h.elim hraw id) hshown, fun h => .inl (.inr h)⟩

theorem findQualified?_eq_some_iff (h : ctx.base.path ≠ []) :
    ctx.findQualified? name = some i ↔
      ∃ source short, Qualified name source short ∧ ctx.store.Prefers (ctx.IsIn source short) i := by
  have hfind : ∀ source short, (candidates.findSome? fun k =>
      ctx.store.findFrom? k short.trim (ctx.isFrom source.trim)) = some i ↔
        ctx.store.Prefers (ctx.IsIn source short) i := by
    intro source short
    refine Store.findSome?_candidates fun k i => ?_
    simp only [Store.findFrom?_eq_some_iff, isFrom_eq_same h, Block.Bears, IsIn, Base.same,
      beq_iff_eq, and_assoc]
  constructor
  · intro hsome
    unfold findQualified? at hsome
    split at hsome
    next => cases hsome
    next source short hcut =>
      split at hsome
      next => cases hsome
      next hne =>
        obtain ⟨heq, hcolon⟩ := Text.cutLast_eq_some_iff.1 hcut
        obtain ⟨hsource, hshort⟩ := not_or.1 hne
        exact ⟨source, short, ⟨heq, hcolon, hsource, hshort⟩, (hfind source short).1 hsome⟩
  · rintro ⟨source, short, hname, hprefers⟩
    have hcut := Text.cutLast_eq_some_iff.2 ⟨hname.eq_append, hname.colon_notMem⟩
    simp only [findQualified?, hcut, hname.source_ne_nil, hname.short_ne_nil, or_self, if_false]
    exact (hfind source short).2 hprefers

theorem find?_eq_some_iff (h : ctx.base.path ≠ []) :
    ctx.find? name = some i ↔ ctx.Means name i := by
  have hwhole : (candidates.findSome? fun k => ctx.store.find? k name) = some i ↔
      ctx.store.Prefers (fun b => b.name? = some name) i :=
    Store.findSome?_candidates fun _ _ => Store.find?_eq_some_iff
  have hnone : ctx.findQualified? name = none ↔
      ∀ source short, Qualified name source short →
        ∀ j, ¬ ctx.store.Prefers (ctx.IsIn source short) j := by
    simp only [Option.eq_none_iff_forall_ne_some, ne_eq, findQualified?_eq_some_iff h, not_exists,
      not_and]
    exact ⟨fun h source short hname j => h j source short hname,
      fun h j source short hname => h source short hname j⟩
  rw [Means, ← findQualified?_eq_some_iff h, ← hnone, ← hwhole, find?]
  cases ctx.findQualified? name with
  | none => simp
  | some j => simp

end Context

end Expansion

/-- In every store the index and the scan find the block that was added last, and a placeholder's
name means what `Means` says. -/
theorem lookup_has_one_meaning (additions : List Addition) (options : Options) (cwd input : Text)
    (fetch : Ref → Except Extract.Failure Text) :
    let s := Store.ofAdditions additions
    let ctx : Expansion.Context := ⟨s, options, .ofPath cwd input, fetch⟩
    s.blocks = additions.flatMap Addition.blocks ∧
      (∀ k name, s.find? k name = s.findFrom? k name (fun _ => true) ∧
        (∀ i, s.find? k name = some i ↔ s.IsLast (·.Bears k name) i) ∧
        (k.isNamed = false → s.find? k name = none)) ∧
      (∀ source document, ctx.isFrom source document = ctx.base.same document source) ∧
      ∀ name i, ctx.find? name = some i ↔ ctx.Means name i := by
  intro s ctx
  have hbase : ctx.base.path ≠ [] := Path.clean_ne_nil _
  refine ⟨Store.blocks_foldl_apply .empty additions, fun k name => ⟨?_, ?_, ?_⟩,
    Expansion.Context.isFrom_eq_same hbase, fun _ _ => Expansion.Context.find?_eq_some_iff hbase⟩
  · exact Store.find?_eq_findFrom? s k name
  · exact fun i => Store.find?_eq_some_iff
  · exact Store.find?_eq_none_of_not_isNamed

end Tangle
