import Tangle.Proofs.Document.Append
import Tangle.Proofs.Document.Partition

namespace Tangle

def Region.move (k : Int) (r : Region) : Region :=
  { r with first := r.first + k, last := r.last + k }

namespace Block

def mapRegion (f : Region → Region) : Block → Block
  | code b => .code { b with toRegion := f b.toRegion }
  | output b => .output { b with toRegion := f b.toRegion }
  | injection b => .injection { b with toRegion := f b.toRegion }
  | config b => .config { b with toRegion := f b.toRegion }
  | importing b => .importing { b with toRegion := f b.toRegion }
  | reference b => .reference { b with toRegion := f b.toRegion }
  | custom b => .custom { b with toRegion := f b.toRegion }
  | pull b => .pull { b with toRegion := f b.toRegion }

/-- The block moved by `k` lines if it stands below `line`. All but its lines stays. -/
def moveBelow (line k : Int) (b : Block) : Block :=
  if line < b.region.first then b.mapRegion (·.move k) else b

theorem mapRegion_mapRegion (f g : Region → Region) (b : Block) :
    (b.mapRegion f).mapRegion g = b.mapRegion fun r => g (f r) := by
  cases b <;> rfl

theorem map_moveBelow_of_le {bs : List Block} {line : Int} (h : ∀ b ∈ bs, b.region.first ≤ line)
    (k : Int) : bs.map (·.moveBelow line k) = bs := by
  refine (List.map_congr_left fun b hb => ?_).trans (List.map_id bs)
  exact if_neg (Int.not_lt.2 (h b hb))

theorem map_moveBelow_of_lt {bs : List Block} {line : Int} (h : ∀ b ∈ bs, line < b.region.first)
    (k : Int) : bs.map (·.moveBelow line k) = bs.map (·.mapRegion (·.move k)) :=
  List.map_congr_left fun b hb => if_pos (h b hb)

theorem shift_eq_mapRegion (k : Nat) (b : Block) : b.shift k = b.mapRegion (·.move k) := by
  cases b <;> rfl

end Block

namespace Diagnostic

def move (k : Int) (d : Diagnostic) : Diagnostic := { d with line := d.line + k }

def moveBelow (line k : Int) (d : Diagnostic) : Diagnostic :=
  if line < d.line then d.move k else d

theorem map_moveBelow_of_le {ds : List Diagnostic} {line : Int} (h : ∀ d ∈ ds, d.line ≤ line)
    (k : Int) : ds.map (·.moveBelow line k) = ds := by
  refine (List.map_congr_left fun d hd => ?_).trans (List.map_id ds)
  exact if_neg (Int.not_lt.2 (h d hd))

theorem map_moveBelow_of_lt {ds : List Diagnostic} {line : Int} (h : ∀ d ∈ ds, line < d.line)
    (k : Int) : ds.map (·.moveBelow line k) = ds.map (·.move k) :=
  List.map_congr_left fun d hd => if_pos (h d hd)

end Diagnostic

namespace Lexer

section Place

variable {o : Origin} {before : List Text} {parts : List Part}

theorem diagnostics_literate {attrs : Attributes} {r : Region} {line : Nat} {d : Diagnostic}
    (h : d ∈ (literate o attrs r line).diagnostics) : d.line = line := by
  rcases blockOrProblem_literate o attrs r line with ⟨b, -, hfound⟩ | ⟨message, hfound⟩
  · rw [hfound] at h
    cases h
  · rw [hfound] at h
    rw [List.mem_singleton.1 h]

theorem line_of_mem_diagnostics {p : Part} {d : Diagnostic}
    (h : d ∈ (p.found o before).diagnostics) : d.line = ↑(before.length + 1) := by
  cases p with
  | line raw hraw =>
    simp only [Part.found] at h
    split at h <;> cases h
  | enclosed r =>
    simp only [Part.found, Lexed.diagnostics_append, List.mem_append] at h
    rcases h with h | h
    · cases h
    · cases hd : r.delimiter with
      | fence =>
        simp only [hd, Delimiter.content] at h
        split at h
        next => exact diagnostics_literate h
        next => cases h
      | custom name =>
        simp only [hd, Delimiter.content] at h
        cases h
  | unclosed r => rw [List.mem_singleton.1 h]

theorem lines_of_mem_gather {b : Block} (h : b ∈ (gather o before parts).blocks) :
    before.length < b.region.first ∧ b.region.first ≤ b.region.last ∧
      b.region.last ≤ (before ++ parts.flatMap Part.lines).length := by
  obtain ⟨earlier, p, hp, hb⟩ := mem_blocks_gather.1 h
  obtain ⟨done, rest, rfl, rfl⟩ := mem_placed hp
  obtain ⟨hfirst, hlast⟩ := lines_of_mem_blocks hb
  have := p.length_lines_pos
  simp only [List.flatMap_append, List.flatMap_cons, List.length_append] at hfirst hlast ⊢
  omega

theorem bytes_of_mem_gather {s : Span} (h : s ∈ (gather o before parts).spans) :
    before.flatten.length ≤ s.start ∧
      s.stop ≤ (before ++ parts.flatMap Part.lines).flatten.length := by
  obtain ⟨earlier, p, hp, hs⟩ := mem_spans_gather.1 h
  obtain ⟨done, rest, rfl, rfl⟩ := mem_placed hp
  obtain ⟨-, -, rfl⟩ := mem_spans_found.1 hs
  simp only [List.flatMap_append, List.flatMap_cons, List.flatten_append, List.length_append]
  omega

theorem line_of_mem_gather {d : Diagnostic} (h : d ∈ (gather o before parts).diagnostics) :
    before.length < d.line ∧ d.line ≤ (before ++ parts.flatMap Part.lines).length := by
  obtain ⟨earlier, p, hp, hd⟩ := mem_diagnostics_gather.1 h
  obtain ⟨done, rest, rfl, rfl⟩ := mem_placed hp
  have hline := line_of_mem_diagnostics hd
  have := p.length_lines_pos
  simp only [List.flatMap_append, List.flatMap_cons, List.length_append] at hline ⊢
  omega

end Place

section Found

variable {o : Origin} {before : List Text} {p : Part} {b : Block}

theorem found_of_mem_blocks (h : b ∈ (p.found o before).blocks) :
    (p.found o before).blocks = [b] ∧ (p.found o before).diagnostics = [] := by
  cases p with
  | line raw hraw =>
    simp only [Part.found] at h ⊢
    split at h
    next q hq =>
      rw [List.mem_singleton.1 h]
      exact ⟨rfl, rfl⟩
    next => cases h
  | enclosed r =>
    simp only [Part.found, Lexed.blocks_append, Lexed.diagnostics_append, Lexed.span,
      List.nil_append] at h ⊢
    cases hd : r.delimiter with
    | fence =>
      simp only [hd, Delimiter.content] at h ⊢
      split at h
      next hliterate =>
        simp only [hliterate, if_true]
        rcases blockOrProblem_literate o _ (r.place o before) (before.length + 1) with
          ⟨b', -, hfound⟩ | ⟨message, hfound⟩
        · rw [hfound] at h ⊢
          rw [List.mem_singleton.1 h]
          exact ⟨rfl, rfl⟩
        · rw [hfound] at h
          cases h
      next => cases h
    | custom name =>
      simp only [hd, Delimiter.content] at h ⊢
      rw [List.mem_singleton.1 h]
      exact ⟨rfl, rfl⟩
  | unclosed r => cases h

theorem exists_outline_of_mem_blocks {source relDir text : Text}
    (h : b ∈ (lex source relDir text).blocks) :
    ∃ done p rest, Outline (done ++ p :: rest) text.rawLines ∧
      b ∈ (p.found ⟨source, relDir⟩ (done.flatMap Part.lines)).blocks := by
  obtain ⟨parts, houtline⟩ := exists_outline text.rawLines
  rw [lex_eq_gather source relDir houtline] at h
  obtain ⟨earlier, p, hp, hb⟩ := mem_blocks_gather.1 h
  obtain ⟨done, rest, rfl, rfl⟩ := mem_placed hp
  exact ⟨done, p, rest, houtline, hb⟩

end Found

section Move

variable (o : Origin) (a b : List Text) (parts : List Part)

theorem gather_eq_shift :
    gather o a parts = (gather o [] parts).shift a.length a.flatten.length := by
  rw [← gather_shift, List.append_nil]

theorem blocks_gather_move :
    (gather o b parts).blocks =
      (gather o a parts).blocks.map (·.mapRegion (·.move (b.length - a.length))) := by
  rw [gather_eq_shift o a, gather_eq_shift o b, Lexed.shift, Lexed.shift, List.map_map]
  apply List.map_congr_left
  intro x _
  rw [Function.comp_apply, Block.shift_eq_mapRegion, Block.shift_eq_mapRegion,
    Block.mapRegion_mapRegion]
  congr 1
  funext r
  simp only [Region.move, Region.mk.injEq, true_and]
  omega

theorem diagnostics_gather_move :
    (gather o b parts).diagnostics =
      (gather o a parts).diagnostics.map (·.move (b.length - a.length)) := by
  rw [gather_eq_shift o a, gather_eq_shift o b, Lexed.shift, Lexed.shift, List.map_map]
  apply List.map_congr_left
  intro d _
  simp only [Function.comp_apply, Diagnostic.shift, Diagnostic.move, Diagnostic.mk.injEq, true_and,
    and_true]
  omega

end Move

theorem Outline.of_isClosed {parts : List Part} (h : ∀ p ∈ parts, p.IsClosed) :
    Outline parts (parts.flatMap Part.lines) := by
  induction parts with
  | nil => exact .nil
  | cons p parts ih =>
    exact .cons (h p (List.mem_cons_self ..)) (ih fun q hq => h q (List.mem_cons_of_mem _ hq))

theorem Outline.isClosed_of_append {done rest : List Part} {p : Part} {lines : List Text}
    (h : Outline (done ++ p :: rest) lines) : ∀ q ∈ done, q.IsClosed := by
  induction done generalizing lines with
  | nil => simp
  | cons q done ih =>
    generalize hparts : q :: done ++ p :: rest = parts at h
    cases h with
    | nil => cases hparts
    | cons hq hrest =>
      cases hparts
      rw [List.forall_mem_cons]
      exact ⟨hq, ih hrest⟩
    | last r => simp at hparts

theorem Outline.eq_nil_of_unclosed {done later : List Part} {r : Opened} {lines : List Text}
    (h : Outline (done ++ .unclosed r :: later) lines) : later = [] := by
  cases later with
  | nil => rfl
  | cons q later =>
    rw [List.append_cons] at h
    exact (h.isClosed_of_append (.unclosed r) (by simp)).elim

theorem Outline.exchange {done rest new : List Part} {p : Part} {lines : List Text}
    (h : Outline (done ++ p :: rest) lines) (hp : p.IsClosed) (hnew : ∀ q ∈ new, q.IsClosed) :
    Outline (done ++ (new ++ rest)) (done.flatMap Part.lines ++
      (new.flatMap Part.lines ++ rest.flatMap Part.lines)) := by
  induction done generalizing lines with
  | nil =>
    cases h with
    | cons _ hrest =>
      rw [← hrest.flatMap_lines] at hrest
      exact (Outline.of_isClosed hnew).append hnew hrest
    | last r => exact hp.elim
  | cons q done ih =>
    generalize hparts : q :: done ++ p :: rest = parts at h
    cases h with
    | nil => cases hparts
    | cons hq hrest =>
      cases hparts
      rw [List.cons_append, List.flatMap_cons, List.append_assoc]
      exact .cons hq (ih hrest)
    | last r => simp at hparts

section Exchange

variable {o : Origin} {done rest new : List Part} {p : Part} {k : Int}

variable (o done rest p) in
theorem gather_part :
    gather o [] (done ++ p :: rest) =
      gather o [] done ++ (p.found o (done.flatMap Part.lines) ++
        gather o (done.flatMap Part.lines ++ p.lines) rest) := by
  rw [gather_append, gather_cons, List.nil_append]

variable (o done rest new) in
theorem gather_parts :
    gather o [] (done ++ (new ++ rest)) =
      gather o [] done ++ (gather o (done.flatMap Part.lines) new ++
        gather o (done.flatMap Part.lines ++ new.flatMap Part.lines) rest) := by
  rw [gather_append, gather_append, List.nil_append]

theorem blocks_exchange {b : Block} (hp : (p.found o (done.flatMap Part.lines)).blocks = [b])
    (hnew : (gather o (done.flatMap Part.lines) new).blocks = [])
    (hk : rest ≠ [] → k = (new.flatMap Part.lines).length - p.lines.length) :
    (gather o [] (done ++ (new ++ rest))).blocks =
      ((gather o [] (done ++ p :: rest)).blocks.filter (· ≠ b)).map
        (·.moveBelow b.region.last k) := by
  obtain ⟨hfirst, hlast⟩ := lines_of_mem_blocks (hp ▸ List.mem_singleton_self b)
  have hpos := p.length_lines_pos
  rw [List.length_append] at hlast
  have habove : ∀ x ∈ (gather o [] done).blocks, x.region.first < b.region.first := by
    intro x hx
    have := lines_of_mem_gather hx
    rw [List.nil_append] at this
    omega
  have hbelow : ∀ x ∈ (gather o (done.flatMap Part.lines ++ p.lines) rest).blocks,
      b.region.last < x.region.first := by
    intro x hx
    have := lines_of_mem_gather hx
    rw [List.length_append] at this
    omega
  have hfilter : (gather o [] (done ++ p :: rest)).blocks.filter (· ≠ b) =
      (gather o [] done).blocks ++ (gather o (done.flatMap Part.lines ++ p.lines) rest).blocks := by
    rw [gather_part, Lexed.blocks_append, Lexed.blocks_append, hp, List.filter_append,
      List.filter_append, List.filter_eq_self.2, List.filter_eq_nil_iff.2, List.filter_eq_self.2]
    · rfl
    · intro x hx
      have := hbelow x hx
      simp only [ne_eq, decide_eq_true_eq]
      rintro rfl
      omega
    · simp
    · intro x hx
      have := habove x hx
      simp only [ne_eq, decide_eq_true_eq]
      rintro rfl
      omega
  rw [hfilter, gather_parts, Lexed.blocks_append, Lexed.blocks_append, hnew, List.nil_append,
    List.map_append, Block.map_moveBelow_of_le, Block.map_moveBelow_of_lt hbelow]
  · congr 1
    by_cases hrest : rest = []
    · subst hrest
      rfl
    · have hmove := hk hrest
      rw [blocks_gather_move o (done.flatMap Part.lines ++ p.lines), List.length_append,
        List.length_append, Int.natCast_add, Int.natCast_add, Int.add_sub_add_left, ← hmove]
  · intro x hx
    have := habove x hx
    omega

theorem first_ne_of_exchange {b : Block} (hnew : (gather o (done.flatMap Part.lines) new).blocks = [])
    (hne : new ≠ []) (hb : b ∈ (gather o [] (done ++ (new ++ rest))).blocks) :
    b.region.first ≠ ↑((done.flatMap Part.lines).length + 1) := by
  obtain ⟨q, new, rfl⟩ := List.exists_cons_of_ne_nil hne
  have hpos := q.length_lines_pos
  rw [gather_parts, Lexed.blocks_append, Lexed.blocks_append, hnew, List.nil_append,
    List.mem_append] at hb
  rcases hb with hb | hb
  · have := lines_of_mem_gather hb
    rw [List.nil_append] at this
    omega
  · have := lines_of_mem_gather hb
    simp only [List.flatMap_cons, List.length_append] at this
    omega

theorem line_ne_of_exchange {d : Diagnostic}
    (hnew : (gather o (done.flatMap Part.lines) new).diagnostics = []) (hne : new ≠ [])
    (hd : d ∈ (gather o [] (done ++ (new ++ rest))).diagnostics) :
    d.line ≠ ↑((done.flatMap Part.lines).length + 1) := by
  obtain ⟨q, new, rfl⟩ := List.exists_cons_of_ne_nil hne
  have hpos := q.length_lines_pos
  rw [gather_parts, Lexed.diagnostics_append, Lexed.diagnostics_append, hnew, List.nil_append,
    List.mem_append] at hd
  rcases hd with hd | hd
  · have := line_of_mem_gather hd
    rw [List.nil_append] at this
    omega
  · have := line_of_mem_gather hd
    simp only [List.flatMap_cons, List.length_append] at this
    omega

theorem diagnostics_exchange {line : Int}
    (hline : line = (done.flatMap Part.lines ++ p.lines).length)
    (hp : (p.found o (done.flatMap Part.lines)).diagnostics = [])
    (hnew : (gather o (done.flatMap Part.lines) new).diagnostics = [])
    (hk : rest ≠ [] → k = (new.flatMap Part.lines).length - p.lines.length) :
    (gather o [] (done ++ (new ++ rest))).diagnostics =
      (gather o [] (done ++ p :: rest)).diagnostics.map (·.moveBelow line k) := by
  rw [gather_part, gather_parts, Lexed.diagnostics_append, Lexed.diagnostics_append,
    Lexed.diagnostics_append, Lexed.diagnostics_append, hp, hnew, List.nil_append, List.nil_append,
    List.map_append, Diagnostic.map_moveBelow_of_le, Diagnostic.map_moveBelow_of_lt]
  · congr 1
    by_cases hrest : rest = []
    · subst hrest
      rfl
    · have hmove := hk hrest
      rw [diagnostics_gather_move o (done.flatMap Part.lines ++ p.lines), List.length_append,
        List.length_append, Int.natCast_add, Int.natCast_add, Int.add_sub_add_left, ← hmove]
  · intro d hd
    have := line_of_mem_gather hd
    omega
  · intro d hd
    have := line_of_mem_gather hd
    rw [List.nil_append] at this
    rw [hline, List.length_append]
    omega

end Exchange

end Lexer

end Tangle
