import Tangle.Block.Store
import Tangle.Proofs.Document.Edit

namespace Tangle

def Region.unplaced (r : Region) : Region := { r with first := 0, last := 0 }

namespace Block

def unplaced (b : Block) : Block := b.mapRegion Region.unplaced

@[simp] theorem kind_unplaced (b : Block) : b.unplaced.kind = b.kind := by
  cases b <;> rfl

@[simp] theorem name?_unplaced (b : Block) : b.unplaced.name? = b.name? := by
  cases b <;> rfl

@[simp] theorem source_unplaced (b : Block) : b.unplaced.region.source = b.region.source := by
  cases b <;> rfl

theorem unplaced_shift (k : Nat) (b : Block) : (b.shift k).unplaced = b.unplaced := by
  cases b <;> rfl

/-- Neither an import nor a pull, which are gone once they are answered. -/
def lasts (b : Block) : Bool := b.kind ≠ .importing && b.kind ≠ .pull

@[simp] theorem lasts_unplaced (b : Block) : b.unplaced.lasts = b.lasts := by
  simp [lasts]

end Block

def Output.unplaced (b : Output) : Output := { b with toRegion := b.toRegion.unplaced }

def Config.unplaced (b : Config) : Config := { b with toRegion := b.toRegion.unplaced }

def Pull.unplaced (b : Pull) : Pull := { b with toRegion := b.toRegion.unplaced }

namespace Store

def unplaced (s : Store) : Store := ⟨s.blocks.map Block.unplaced⟩

theorem filterMap_unplaced {α : Type} {f : Block → Option α} {g : α → α}
    (hf : ∀ b : Block, f b.unplaced = (f b).map g) (s : Store) :
    s.unplaced.blocks.filterMap f = (s.blocks.filterMap f).map g := by
  rw [unplaced, List.filterMap_map, List.map_filterMap]
  congr 1
  funext b
  exact hf b

theorem outputs_unplaced (s : Store) : s.unplaced.outputs = s.outputs.map Output.unplaced :=
  filterMap_unplaced (fun b => by cases b <;> rfl) s

theorem configs_unplaced (s : Store) : s.unplaced.configs = s.configs.map Config.unplaced :=
  filterMap_unplaced (fun b => by cases b <;> rfl) s

theorem pulls_unplaced (s : Store) : s.unplaced.pulls = s.pulls.map Pull.unplaced :=
  filterMap_unplaced (fun b => by cases b <;> rfl) s

end Store

namespace Lexer

variable {o : Origin} {before : List Text} {p : Part}

theorem pull?_eq_map (n : Nat) (t : Text) :
    pull? o n t = (pull? o 0 t).map fun q => { q with toRegion := q.toRegion.shift n } := by
  rw [← pull?_shift, Nat.zero_add]

namespace Part

def held (o : Origin) (p : Part) : List Block := (p.found o []).blocks.map Block.unplaced

def request? (o : Origin) : Part → Option Pull
  | line raw _ => pull? o 0 raw.dropLineEnd
  | enclosed _ => none
  | unclosed _ => none

theorem map_unplaced_found (o : Origin) (before : List Text) (p : Part) :
    (p.found o before).blocks.map Block.unplaced = p.held o := by
  rw [held, ← List.append_nil before, found_append, Lexed.shift, List.map_map]
  apply List.map_congr_left
  intro b _
  exact b.unplaced_shift _

theorem held_line {raw : Text} (hraw : opens? raw = none) :
    (line raw hraw).held o = ((line raw hraw).request? o).toList.map .pull := by
  simp only [held, found, request?, pull?_eq_map (o := o) (_ + 1)]
  cases h : pull? o 0 raw.dropLineEnd with
  | none => rfl
  | some q =>
    have hregion := toRegion_of_pull? h
    obtain ⟨region, path, name, marker⟩ := q
    dsimp only at hregion
    rw [hregion]
    rfl

theorem kind_ne_pull_of_mem_held {r : Enclosed} {b : Block} (h : b ∈ (enclosed r).held o) :
    b.kind ≠ .pull := by
  obtain ⟨b, hb, rfl⟩ := List.mem_map.1 h
  rcases mem_blocks_found hb with ⟨_, _, _, hpart, _⟩ | ⟨_, _, _, hkind, _⟩
  · cases hpart
  · rwa [Block.kind_unplaced]

end Part

theorem source_of_mem_found {b : Block} (h : b ∈ (p.found o before).blocks) :
    b.region.source = o.source := by
  rcases mem_blocks_found h with ⟨_, _, q, -, hq, rfl⟩ | ⟨r, -, hregion, -⟩
  · rw [Block.region, toRegion_of_pull? hq]
  · rw [hregion]
    rfl

theorem map_unplaced_gather (o : Origin) (before : List Text) (parts : List Part) :
    (gather o before parts).blocks.map Block.unplaced = parts.flatMap (Part.held o) := by
  induction parts generalizing before with
  | nil => rfl
  | cons p parts ih =>
    rw [gather_cons, Lexed.blocks_append, List.map_append, ih, p.map_unplaced_found,
      List.flatMap_cons]

theorem map_unplaced_pulls (o : Origin) (before : List Text) (parts : List Part) :
    (Store.pulls ⟨(gather o before parts).blocks⟩).map Pull.unplaced =
      parts.filterMap (·.request? o) := by
  rw [← Store.pulls_unplaced, Store.unplaced, map_unplaced_gather]
  induction parts with
  | nil => rfl
  | cons p parts ih =>
    have happend : Store.pulls ⟨(p :: parts).flatMap (·.held o)⟩ =
        Store.pulls ⟨p.held o⟩ ++ Store.pulls ⟨parts.flatMap (·.held o)⟩ :=
      List.filterMap_append ..
    rw [happend, ih]
    cases p with
    | line raw hraw =>
      rw [Part.held_line]
      cases h : (Part.line raw hraw).request? o <;> simp [Store.pulls, h]
    | enclosed r =>
      have hnone : Store.pulls ⟨(Part.enclosed r).held o⟩ = [] := by
        refine List.eq_nil_iff_forall_not_mem.2 fun q hq => ?_
        exact Part.kind_ne_pull_of_mem_held (Store.mem_pulls.1 hq) rfl
      simp [hnone, Part.request?]
    | unclosed r => rfl

end Lexer

theorem source_of_mem_lex {source relDir text : Text} {b : Block}
    (h : b ∈ (lex source relDir text).blocks) : b.region.source = source := by
  obtain ⟨_, _, _, -, hb⟩ := Lexer.exists_outline_of_mem_blocks h
  exact Lexer.source_of_mem_found hb

end Tangle
