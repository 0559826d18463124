import Tangle.Block.Basic

namespace Tangle

/-- For each kind and name the place of a block in a store. -/
abbrev Index := Kind → Text → Option Nat

namespace Index

def empty : Index := fun _ _ => none

def insert (index : Index) (b : Block) (i : Nat) : Index := fun k name =>
  if b.kind = k ∧ b.name? = some name then some i else index k name

end Index

structure Store where
  blocks : List Block
  deriving Repr

namespace Store

def empty : Store := ⟨[]⟩

def add (s : Store) (b : Block) : Store := ⟨s.blocks ++ [b]⟩

def addAll (s : Store) (bs : List Block) : Store := ⟨s.blocks ++ bs⟩

def ofKind (s : Store) (k : Kind) : List Block := s.blocks.filter (·.kind = k)

def count (s : Store) (k : Kind) : Nat := (s.ofKind k).length

abbrev size (s : Store) : Nat := s.blocks.length

/-- A block's place in the store tells it apart from blocks that look the same. -/
abbrev Id (s : Store) : Type := Fin s.size

def get (s : Store) (i : s.Id) : Block := s.blocks.get i

def last? (s : Store) (p : Block → Bool) : Option s.Id :=
  (List.finRange s.size).reverse.find? fun i => p (s.get i)

def findFrom? (s : Store) (k : Kind) (name : Text) (fromSource : Text → Bool) : Option s.Id :=
  s.last? fun b => b.kind == k && b.name? == some name && fromSource b.region.source

def index (s : Store) : Index :=
  s.blocks.zipIdx.foldl (fun index (b, i) => index.insert b i) .empty

def find? (s : Store) (k : Kind) (name : Text) : Option s.Id :=
  (s.index k name).bind fun i => if h : i < s.size then some ⟨i, h⟩ else none

def codes (s : Store) : List Code := s.blocks.filterMap fun | .code b => some b | _ => none

def outputs (s : Store) : List Output := s.blocks.filterMap fun | .output b => some b | _ => none

def injections (s : Store) : List Injection :=
  s.blocks.filterMap fun | .injection b => some b | _ => none

def configs (s : Store) : List Config := s.blocks.filterMap fun | .config b => some b | _ => none

def imports (s : Store) : List Import := s.blocks.filterMap fun | .importing b => some b | _ => none

def references (s : Store) : List Reference :=
  s.blocks.filterMap fun | .reference b => some b | _ => none

def customs (s : Store) : List Custom := s.blocks.filterMap fun | .custom b => some b | _ => none

def pulls (s : Store) : List Pull := s.blocks.filterMap fun | .pull b => some b | _ => none

section Membership

variable {s : Store}

theorem mem_filterMap_blocks {α : Type} {a : α} {f : Block → Option α} {wrap : α → Block}
    (hf : ∀ b, f b = some a ↔ b = wrap a) : a ∈ s.blocks.filterMap f ↔ wrap a ∈ s.blocks := by
  simp [List.mem_filterMap, hf]

theorem mem_outputs {out : Output} : out ∈ s.outputs ↔ .output out ∈ s.blocks :=
  mem_filterMap_blocks fun b => by cases b <;> simp

theorem mem_injections {i : Injection} : i ∈ s.injections ↔ .injection i ∈ s.blocks :=
  mem_filterMap_blocks fun b => by cases b <;> simp

theorem mem_configs {c : Config} : c ∈ s.configs ↔ .config c ∈ s.blocks :=
  mem_filterMap_blocks fun b => by cases b <;> simp

theorem mem_imports {i : Import} : i ∈ s.imports ↔ .importing i ∈ s.blocks :=
  mem_filterMap_blocks fun b => by cases b <;> simp

theorem mem_references {r : Reference} : r ∈ s.references ↔ .reference r ∈ s.blocks :=
  mem_filterMap_blocks fun b => by cases b <;> simp

theorem mem_pulls {p : Pull} : p ∈ s.pulls ↔ .pull p ∈ s.blocks :=
  mem_filterMap_blocks fun b => by cases b <;> simp

end Membership

end Store

end Tangle
