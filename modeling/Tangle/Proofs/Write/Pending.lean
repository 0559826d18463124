import Tangle.Proofs.Document.Unplaced
import Tangle.Proofs.Write.Pull
import Tangle.Proofs.Write.Splice

/-!
A document on its way through a run. First all imports give way to their texts, then one request
after the other is answered where its marker first occurs. In between a document is pending: its
requests stand on lines of their own, in the order in which they are answered, and no marker occurs
anywhere else. When no request is left, the document holds the blocks that it held at first, but for
imports and pulls.
-/

namespace Tangle

namespace Text

def Plain (t : Text) : Prop := ¬ Lexer.fenceMark <:+: t ∧ ¬ Marker.opening <:+: t

instance (t : Text) : Decidable t.Plain := inferInstanceAs (Decidable (_ ∧ _))

section First

variable {m t u rest : Text}

theorem cut_append_of_notMem (ht : t.Ended) (hne : m ≠ []) (hm : lf ∉ m)
    (hlines : ∀ raw ∈ t.rawLines, ¬ m <:+: raw) (rest : Text) :
    cut m (t ++ (m ++ rest)) = some (t, rest) := by
  induction t using lines_induction with
  | nil => exact cut_append_self hne rest
  | last line hline hlf => exact absurd ht (not_ended hline hlf)
  | cons line t hlf ih =>
    rw [rawLines_append_cons hlf] at hlines
    have hline : ¬ m <:+: line := fun h =>
      hlines _ (List.mem_cons_self ..) (h.trans (List.prefix_append ..).isInfix)
    have hended : t.Ended := by
      rw [← List.singleton_append, ← List.append_assoc] at ht
      exact ht.of_append
    rw [List.append_assoc, List.cons_append, cut_append_cons hne hm hline,
      ih hended fun raw hraw => hlines raw (List.mem_cons_of_mem _ hraw)]
    rfl

theorem infix_of_mem_rawLines {raw : Text} (h : raw ∈ t.rawLines) : raw <:+: t := by
  rw [← flatten_rawLines t]
  exact List.infix_of_mem_flatten h

theorem infix_of_infix_append_inkless {w : Text} (hne : m ≠ []) (hm : ∀ b ∈ m, isInk b = true)
    (hw : w.Inkless) (h : m <:+: t ++ w) : m <:+: t := by
  rw [← contains_iff_isInfix] at h ⊢
  unfold contains at h ⊢
  rwa [cut_append_inkless hne hm hw, Option.isSome_map] at h

theorem infix_of_infix_append_lf (hm : lf ∉ m) (h : m <:+: t ++ [lf]) : m <:+: t := by
  rcases infix_of_infix_append_cons hm h with h | h
  · exact h
  · exact List.infix_nil.1 h ▸ List.nil_infix

end First

end Text

open Text

namespace Lexer

namespace Part

variable {o : Origin} {p : Part}

theorem request?_eq_none (h : p.held o = []) : p.request? o = none := by
  cases p with
  | line raw hraw =>
    rw [held_line, List.map_eq_nil_iff] at h
    cases hq : (line raw hraw).request? o with
    | none => rfl
    | some q => simp [hq] at h
  | enclosed r => rfl
  | unclosed r => rfl

def Tidy (o : Origin) (markers : List Text) (p : Part) : Prop :=
  match p.request? o with
  | some q => ∃ tail : Text, p.lines = [q.marker ++ tail] ∧ tail.Inkless
  | none => ∀ raw ∈ p.lines, ∀ m ∈ markers, ¬ m <:+: raw

theorem Tidy.of_request?_eq_some {markers : List Text} {q : Pull} (h : p.Tidy o markers)
    (hq : p.request? o = some q) : ∃ (tail : Text) (hraw : opens? (q.marker ++ tail) = none),
      p = .line (q.marker ++ tail) hraw ∧ tail.Inkless := by
  rw [Tidy, hq] at h
  obtain ⟨tail, hlines, htail⟩ := h
  cases p with
  | line raw hraw =>
    obtain rfl : raw = q.marker ++ tail := by simpa [lines] using hlines
    exact ⟨tail, hraw, rfl, htail⟩
  | enclosed r => cases hq
  | unclosed r => cases hq

theorem tidy_of_request?_eq_none {markers : List Text} (hq : p.request? o = none)
    (h : ∀ raw ∈ p.lines, ∀ m ∈ markers, ¬ m <:+: raw) : p.Tidy o markers := by
  rwa [Tidy, hq]

theorem Tidy.free {markers : List Text} (h : p.Tidy o markers) (hq : p.request? o = none) :
    ∀ raw ∈ p.lines, ∀ m ∈ markers, ¬ m <:+: raw := by
  rwa [Tidy, hq] at h

end Part

end Lexer

namespace Patch

open Lexer

/-- The parts of a document that still asks for `pulls` and holds `lasting` beside. -/
structure Awaits (o : Origin) (markers : List Text) (lasting : List Block) (parts : List Part)
    (text : Text) (pulls : List Pull) : Prop where
  outline : Outline parts text.rawLines
  requests : parts.filterMap (·.request? o) = pulls
  others : (parts.flatMap (·.held o)).filter (·.kind ≠ .pull) = lasting
  tidy : ∀ p ∈ parts, p.Tidy o markers

def Pending (o : Origin) (markers : List Text) (lasting : List Block) (text : Text)
    (pulls : List Pull) : Prop :=
  ∃ parts, Awaits o markers lasting parts text pulls

section Pull

variable {o : Origin} {markers : List Text} {lasting : List Block} {text body : Text} {q : Pull}
  {qs : List Pull}

theorem silent_of_plain (h : body.Plain) : ∀ raw ∈ body.rawLines, Silent raw := by
  intro raw hraw
  have hinside := infix_of_mem_rawLines hraw
  have hline : raw.dropLineEnd <+: raw := trimEndWhile_isPrefix isLineEnd raw
  have hfence : isFence raw.dropLineEnd = false := by
    rw [← Bool.not_eq_true, isFence, startsWith, List.isPrefixOf_iff_prefix]
    exact fun hmark => h.1 ((hmark.trans hline).isInfix.trans hinside)
  have hopening : after? Marker.opening raw.dropLineEnd = none := by
    rw [← Option.not_isSome_iff_eq_none, after?_isSome]
    exact fun hmark => h.2 ((hmark.trans hline).isInfix.trans hinside)
  constructor
  · simp [opens?, hfence, Marker.customName?, hopening]
  · simp [Marker.pullRequest?, hopening]

theorem free_of_pulled {path name tail m : Text} (hopening : Marker.opening <+: m) (hm : lf ∉ m)
    (hprocessed : ¬ m <:+: Marker.pull path name true) (hbody : body.Plain) (htail : tail.Inkless) :
    ∀ raw ∈ (Marker.pull path name true ++ [lf]) :: rawLines (body.dropFinalLf ++ tail),
      ¬ m <:+: raw := by
  intro raw hraw hinside
  rcases List.mem_cons.1 hraw with rfl | hraw
  · exact hprocessed (infix_of_infix_append_lf hm hinside)
  · have hmark : Marker.opening <:+: body.dropFinalLf ++ tail :=
      (hopening.isInfix.trans hinside).trans (infix_of_mem_rawLines hraw)
    have hdrop : body.dropFinalLf <+: body := by
      unfold dropFinalLf
      split
      next => exact List.dropLast_prefix _
      next => exact List.prefix_rfl
    have hshort := infix_of_infix_append_inkless (by decide) (by decide +kernel) htail hmark
    exact hbody.2 (hshort.trans hdrop.isInfix)

theorem Pending.pull (h : Pending o markers lasting text (q :: qs)) (hq : q.marker ∈ markers)
    (hmarkers : ∀ m ∈ markers, Marker.opening <+: m ∧ lf ∉ m ∧
      ¬ m <:+: Marker.pull q.path q.name true)
    (hbody : body.Plain) :
    ∃ out, pull? text q.marker q.path q.name body = some out ∧
      Pending o markers lasting out qs := by
  obtain ⟨parts, h⟩ := h
  obtain ⟨done, p, later, rfl, hdone, hp, hlater⟩ := List.filterMap_eq_cons_iff.1 h.requests
  obtain ⟨tail, hraw, rfl, htail⟩ := (h.tidy p (by simp)).of_request?_eq_some hp
  have houtline := h.outline
  have hsplit : text.rawLines =
      done.flatMap Part.lines ++ (q.marker ++ tail) :: later.flatMap Part.lines := by
    simp [← houtline.flatMap_lines, Part.lines]
  have hline : lf ∉ (q.marker ++ tail).dropLineEnd :=
    lf_notMem_dropLineEnd (t := text) (by simp [hsplit])
  obtain ⟨-, -, hne, hmarker, hpath, hname⟩ := of_pull?_eq_some hline hp
  -- The lines before it are free of the marker, so this is where it first occurs.
  have hfree : ∀ raw ∈ done.flatMap Part.lines, ¬ q.marker <:+: raw := by
    intro raw hmem
    obtain ⟨part, hpart, hmem⟩ := List.mem_flatMap.1 hmem
    exact (h.tidy part (by simp [hpart])).free (hdone part hpart) raw hmem _ hq
  obtain ⟨hbefore, -, hended⟩ := rawLines_parted hsplit
  have hcut : cut q.marker text = some ((done.flatMap Part.lines).flatten,
      tail ++ (later.flatMap Part.lines).flatten) := by
    have htext : text = (done.flatMap Part.lines).flatten ++
        (q.marker ++ (tail ++ (later.flatMap Part.lines).flatten)) := by
      rw [← flatten_rawLines text, hsplit]
      simp
    rw [htext]
    exact cut_append_of_notMem (hended (by simp)) hne hmarker (by rwa [hbefore]) _
  obtain ⟨new, hempty, hlines, hout⟩ :=
    exists_outline_pull houtline htail hmarker hpath hname (silent_of_plain hbody)
  have hnew : new.flatMap (Part.held o) = [] := by
    rw [← map_unplaced_gather o [], hempty]
    rfl
  have hnone : ∀ part ∈ new, part.request? o = none := fun part hpart =>
    part.request?_eq_none (List.flatMap_eq_nil_iff.1 hnew part hpart)
  refine ⟨_, pull?_of_cut hne hcut _ _ _, done ++ (new ++ later), hout, ?_, ?_, ?_⟩
  · rw [List.filterMap_append, List.filterMap_append, List.filterMap_eq_nil_iff.2 hdone,
      List.filterMap_eq_nil_iff.2 hnone, hlater]
    rfl
  · rw [← h.others]
    simp [hnew, Part.held_line, hp, Block.kind]
  · intro part hpart
    rcases List.mem_append.1 hpart with hpart | hpart
    · exact h.tidy part (by simp [hpart])
    rcases List.mem_append.1 hpart with hpart | hpart
    · refine Part.tidy_of_request?_eq_none (hnone part hpart) fun raw hmem m hm => ?_
      obtain ⟨hopening, hlf, hprocessed⟩ := hmarkers m hm
      refine free_of_pulled hopening hlf hprocessed hbody htail raw ?_
      rw [← hlines]
      exact List.mem_flatMap.2 ⟨part, hpart, hmem⟩
    · exact h.tidy part (by simp [hpart])

theorem Pending.map_unplaced_lex {source relDir : Text}
    (h : Pending ⟨source, relDir⟩ markers lasting text []) :
    (lex source relDir text).blocks.map Block.unplaced = lasting := by
  obtain ⟨parts, h⟩ := h
  rw [lex_eq_gather source relDir h.outline, map_unplaced_gather, ← h.others]
  refine (List.filter_eq_self.2 fun b hb => ?_).symm
  obtain ⟨p, hp, hb⟩ := List.mem_flatMap.1 hb
  have hnone := List.filterMap_eq_nil_iff.1 h.requests p hp
  cases p with
  | line raw hraw => simp [Part.held_line, hnone] at hb
  | enclosed r => simpa using Part.kind_ne_pull_of_mem_held hb
  | unclosed r => cases hb

end Pull

section Imports

variable {o : Origin} {markers : List Text} {p p' : Part}

theorem isFence_eq_false_of_plain {content : Text} (h : content.Plain) :
    ∀ raw ∈ content.rawLines, isFence raw = false := by
  intro raw hraw
  rw [← Bool.not_eq_true, isFence, startsWith, List.isPrefixOf_iff_prefix]
  exact fun hmark => h.1 (hmark.isInfix.trans (infix_of_mem_rawLines hraw))

inductive Spliced (o : Origin) : Part → Part → Prop
  | same {p : Part} (h : ∀ b ∈ p.held o, b.kind ≠ .importing) : Spliced o p p
  | region {r : Enclosed} {content : Text} (hr : r.delimiter = .fence) (hcontent : content.Plain)
    (h : ∀ b ∈ (Part.enclosed r).held o, b.kind = .importing) :
    Spliced o (.enclosed r)
      (.enclosed (importedRegion r hr content (isFence_eq_false_of_plain hcontent)))

theorem Spliced.request?_eq (h : Spliced o p p') : p'.request? o = p.request? o := by
  cases h <;> rfl

theorem Spliced.filter_held (h : Spliced o p p') :
    (p'.held o).filter (·.kind ≠ .pull) = (p.held o).filter Block.lasts := by
  cases h with
  | same h =>
    apply List.filter_congr
    intro b hb
    simp [Block.lasts, h b hb]
  | region hr hcontent h =>
    have hnone : (Part.enclosed (importedRegion _ hr _ (isFence_eq_false_of_plain hcontent))).held o
        = [] := by
      rw [Part.held, blocks_importedRegion]
      rfl
    rw [hnone, List.filter_nil, eq_comm, List.filter_eq_nil_iff]
    intro b hb
    simp [Block.lasts, h b hb]

theorem Spliced.tidy (h : Spliced o p p') (hmarkers : ∀ m ∈ markers, Marker.opening <+: m ∧ lf ∉ m)
    (hp : p.Tidy o markers) : p'.Tidy o markers := by
  cases h with
  | same => exact hp
  | @region r content hr hcontent =>
    have hfree := hp.free rfl
    refine Part.tidy_of_request?_eq_none rfl fun raw hraw m hm hinside => ?_
    obtain ⟨hopening, hlf⟩ := hmarkers m hm
    simp only [Part.lines, Enclosed.lines, importedRegion, List.mem_cons, List.mem_append,
      List.mem_map, List.not_mem_nil, or_false] at hraw
    rcases hraw with rfl | ⟨line, hline, rfl⟩ | rfl
    · have hplain : Fence.plain r.opening.dropLineEnd <+: r.opening :=
        ((Fence.plain_isPrefix _).trans (Fence.fst_splitGroups_isPrefix _ _)).trans
          (trimEndWhile_isPrefix _ _)
      refine hfree r.opening (by simp [Part.lines, Enclosed.lines]) m hm ?_
      exact (infix_of_infix_append_lf hlf hinside).trans hplain.isInfix
    · have hinside : m <:+: line := by
        unfold withLf at hinside
        split at hinside
        next => exact hinside
        next => exact infix_of_infix_append_lf hlf hinside
      exact hcontent.2 ((hopening.isInfix.trans hinside).trans (infix_of_mem_rawLines hline))
    · exact hfree r.closing (by simp [Part.lines, Enclosed.lines]) m hm hinside

section Parts

variable {parts new : List Part} (h : List.Forall₂ (Spliced o) parts new)

include h

theorem filterMap_request?_spliced :
    new.filterMap (·.request? o) = parts.filterMap (·.request? o) := by
  induction h with
  | nil => rfl
  | cons hp _ ih => simp only [List.filterMap_cons, hp.request?_eq, ih]

theorem filter_held_spliced :
    (new.flatMap (·.held o)).filter (·.kind ≠ .pull) =
      (parts.flatMap (·.held o)).filter Block.lasts := by
  induction h with
  | nil => rfl
  | cons hp _ ih =>
    rw [List.flatMap_cons, List.flatMap_cons, List.filter_append, List.filter_append,
      hp.filter_held, ih]

theorem tidy_spliced (hmarkers : ∀ m ∈ markers, Marker.opening <+: m ∧ lf ∉ m)
    (hparts : ∀ p ∈ parts, p.Tidy o markers) : ∀ p ∈ new, p.Tidy o markers := by
  induction h with
  | nil => simp
  | cons hp _ ih =>
    rw [List.forall_mem_cons] at hparts ⊢
    exact ⟨hp.tidy hmarkers hparts.1, ih hparts.2⟩

end Parts

def importsIn (o : Origin) (before : List Text) (parts : List Part) : List Import :=
  (gather o before parts).store.imports

theorem importsIn_cons (o : Origin) (before : List Text) (p : Part) (parts : List Part) :
    importsIn o before (p :: parts) =
      (p.found o before).store.imports ++ importsIn o (before ++ p.lines) parts :=
  List.filterMap_append ..

/-- Imports are spliced from the last to the first: those of the later parts are done when the turn
comes to an earlier part. -/
theorem exists_spliced {text : Text} {done parts : List Part} {chosen : List (Import × Text)}
    (houtline : Outline (done ++ parts) text.rawLines)
    (hchosen : chosen.map Prod.fst = importsIn o (done.flatMap Part.lines) parts)
    (hplain : ∀ c ∈ chosen, c.2.Plain) :
    ∃ out new, spliceImports text chosen = .ok out ∧ Outline (done ++ new) out.rawLines ∧
      List.Forall₂ (Spliced o) parts new := by
  induction parts generalizing done chosen with
  | nil =>
    obtain rfl : chosen = [] := List.map_eq_nil_iff.1 hchosen
    exact ⟨text, [], rfl, houtline, .nil⟩
  | cons p parts ih =>
    have hlines : (done ++ [p]).flatMap Part.lines = done.flatMap Part.lines ++ p.lines := by simp
    rw [importsIn_cons] at hchosen
    obtain ⟨here, later, rfl, hhere, hlater⟩ := List.map_eq_append_iff.1 hchosen
    obtain ⟨out, new, hout, hnew, hspliced⟩ := @ih (done ++ [p]) later (by simpa using houtline)
      (by rw [hlines, hlater]) (fun c hc => hplain c (List.mem_append_right _ hc))
    rw [List.append_assoc, List.singleton_append] at hnew
    cases here with
    | nil =>
      refine ⟨out, p :: new, hout, hnew, .cons (.same fun b hb hkind => ?_) hspliced⟩
      rw [← p.map_unplaced_found o (done.flatMap Part.lines)] at hb
      obtain ⟨b', hb', rfl⟩ := List.mem_map.1 hb
      rw [Block.kind_unplaced] at hkind
      cases b' with
      | importing i =>
        have hnone := List.filterMap_eq_nil_iff.1 hhere.symm (.importing i) hb'
        simp at hnone
      | _ => cases hkind
    | cons c here =>
      obtain ⟨i, content⟩ := c
      rw [List.map_cons] at hhere
      have hb := Store.mem_imports.1 (hhere ▸ List.mem_cons_self (a := i) (l := here.map Prod.fst))
      have hblocks := (found_of_mem_blocks hb).1
      obtain rfl : here = [] := by
        have hone : (p.found o (done.flatMap Part.lines)).store.imports = [i] := by
          simp [Store.imports, hblocks]
        simpa [hone] using hhere
      rcases mem_blocks_found hb with ⟨_, _, _, _, _, hpull⟩ | ⟨r, rfl, -⟩
      · cases hpull
      · obtain ⟨hr, hstands⟩ := stands_of_mem_found hnew hb
        have hcontent : content.Plain := hplain (i, content) (by simp)
        have hfences := isFence_eq_false_of_plain hcontent
        have hclosed : ∀ q ∈ [Part.enclosed (importedRegion r hr content hfences)],
            q.IsClosed := by simp [Part.IsClosed]
        have hexchange := hnew.exchange trivial hclosed
        rw [List.flatMap_singleton] at hexchange
        rw [List.singleton_append, spliceImports, hout]
        dsimp only
        rw [hstands.spliceImport_eq]
        refine ⟨_, .enclosed (importedRegion r hr content hfences) :: new, rfl, ?_,
          .cons (.region hr hcontent fun b hb => ?_) hspliced⟩
        · rw [hstands.rawLines_splice hr hfences]
          exact hexchange
        · rw [← Part.map_unplaced_found o (done.flatMap Part.lines), hblocks] at hb
          rw [List.mem_singleton.1 hb]
          rfl

end Imports

end Patch

namespace Pull

/-- Every occurrence of the marker starts a line with one of the requests for that marker, and only
blanks follow it there. -/
def InPlace (pulls : List Pull) (text : Text) (q : Pull) : Prop :=
  ∀ before after, text = before ++ q.marker ++ after → before.Ended ∧
    trim (after.takeWhile (· ≠ lf)) = [] ∧
    ∃ q' ∈ pulls, q'.marker = q.marker ∧ q'.first = before.count lf + 1

theorem inPlace_iff {pulls : List Pull} {text : Text} {q : Pull} :
    q.InPlace pulls text ↔ ∀ n ≤ text.length, q.marker <+: text.drop n → Ended (text.take n) ∧
      trim ((text.drop (n + q.marker.length)).takeWhile (· ≠ lf)) = [] ∧
      ∃ q' ∈ pulls, q'.marker = q.marker ∧ q'.first = (text.take n).count lf + 1 := by
  constructor
  · intro h n _ hmarker
    refine h (text.take n) (text.drop (n + q.marker.length)) ?_
    obtain ⟨after, hafter⟩ := hmarker
    rw [← List.drop_drop, ← hafter, List.drop_left, List.append_assoc, hafter, List.take_append_drop]
  · rintro h before after rfl
    rw [List.append_assoc] at h
    have hhere := h before.length (by simp) (by simp)
    simpa [← List.drop_drop] using hhere

instance (pulls : List Pull) (text : Text) (q : Pull) : Decidable (q.InPlace pulls text) :=
  decidable_of_iff' _ inPlace_iff

theorem InPlace.of_isInfix {pulls : List Pull} {text raw : Text} {q : Pull}
    {before after : List Text} (h : q.InPlace pulls text)
    (hsplit : text.rawLines = before ++ raw :: after) (hne : q.marker ≠ []) (hlf : lf ∉ q.marker)
    (hinside : q.marker <:+: raw) :
    ∃ tail : Text, raw = q.marker ++ tail ∧ tail.Inkless ∧
      ∃ q' ∈ pulls, q'.marker = q.marker ∧ q'.first = ↑(before.length + 1) := by
  obtain ⟨lead, tail, rfl⟩ := hinside
  have htext : text = (before.flatten ++ lead) ++ q.marker ++ (tail ++ after.flatten) := by
    rw [← flatten_rawLines text, hsplit]
    simp
  obtain ⟨hended, hblank, q', hq', hmarker, hfirst⟩ := h _ _ htext
  obtain ⟨hbefore, -, hlines⟩ := rawLines_parted hsplit
  obtain rfl : lead = [] := by
    -- An `LF` in front of the marker would end the line before it.
    by_contra hlead
    have hmem : lf ∈ lead :=
      List.mem_of_getLast? (endsWith_iff.1 (hended.of_append.resolve_left hlead))
    obtain ⟨line, hline, heq | ⟨rfl, -⟩⟩ := of_rawLines_eq hsplit
    · rw [List.append_assoc] at heq
      rcases List.append_eq_append_iff.1 heq with ⟨w, rfl, -⟩ | ⟨w, rfl, hw⟩
      · exact hline (by simp [hmem])
      · cases w with
        | nil =>
          obtain ⟨b, m, hm⟩ := List.exists_cons_of_ne_nil hne
          simp only [hm, List.nil_append, List.cons_append, List.cons.injEq] at hw
          exact hlf (by simp [hm, hw.1])
        | cons b w => simp [hne] at hw
    · exact hline (by simp [hmem])
  have hcount : before.flatten.count lf = before.length := by
    rw [← length_rawLines (hlines (by simp)), hbefore]
  rw [List.nil_append] at hsplit
  rw [List.append_nil, hcount] at hfirst
  exact ⟨tail, rfl, Patch.inkless_tail hsplit hlf hblank, q', hq', hmarker, by simp [hfirst]⟩

end Pull

namespace Patch

open Lexer

section Start

variable {o : Origin} {text : Text} {parts : List Part}

theorem of_mem_pulls {q : Pull} (houtline : Outline parts text.rawLines)
    (hq : q ∈ (gather o [] parts).store.pulls) :
    Marker.opening <+: q.marker ∧ q.marker ≠ [] ∧ lf ∉ q.marker := by
  obtain ⟨earlier, p, hp, hb⟩ := mem_blocks_gather.1 (Store.mem_pulls.1 hq)
  rcases mem_blocks_found hb with ⟨raw, hraw, q', rfl, hq', heq⟩ | ⟨_, _, _, hkind, _⟩
  · cases heq
    obtain ⟨later, hlines⟩ := houtline.exists_append hp
    have hline : lf ∉ raw.dropLineEnd :=
      lf_notMem_dropLineEnd (t := text) (by simp [hlines, Part.lines])
    obtain ⟨-, hopening, hne, hlf, -⟩ := of_pull?_eq_some hline hq'
    exact ⟨hopening, hne, hlf⟩
  · exact absurd rfl hkind

theorem exists_line_of_mem_pulls {done rest : List Part} {p : Part} {q : Pull}
    (hq : q ∈ (gather o [] (done ++ p :: rest)).store.pulls)
    (hfirst : (done.flatMap Part.lines).length < q.first)
    (hlast : q.first ≤ (done.flatMap Part.lines ++ p.lines).length) :
    ∃ raw hraw, p = .line raw hraw ∧
      Lexer.pull? o ((done.flatMap Part.lines).length + 1) raw.dropLineEnd = some q := by
  have hb : .pull q ∈ (gather o [] (done ++ p :: rest)).blocks := Store.mem_pulls.1 hq
  rw [gather_part, Lexed.blocks_append, Lexed.blocks_append, List.mem_append, List.mem_append] at hb
  rcases hb with hb | hb | hb
  · have := lines_of_mem_gather hb
    simp only [Block.region, List.nil_append] at this
    omega
  · rcases mem_blocks_found hb with ⟨raw, hraw, q', rfl, hq', heq⟩ | ⟨_, _, _, hkind, _⟩
    · cases heq
      exact ⟨raw, hraw, rfl, hq'⟩
    · exact absurd rfl hkind
  · have := lines_of_mem_gather hb
    simp only [Block.region] at this
    omega

theorem isSome_request? {done rest : List Part} {p : Part} {q : Pull}
    (hq : q ∈ (gather o [] (done ++ p :: rest)).store.pulls)
    (hfirst : (done.flatMap Part.lines).length < q.first)
    (hlast : q.first ≤ (done.flatMap Part.lines ++ p.lines).length) :
    (p.request? o).isSome = true := by
  obtain ⟨raw, hraw, rfl, hpull⟩ := exists_line_of_mem_pulls hq hfirst hlast
  rw [pull?_eq_map] at hpull
  obtain ⟨q₀, hq₀, -⟩ := Option.map_eq_some_iff.1 hpull
  simp [Part.request?, hq₀]

theorem mem_pulls_of_pull? {done rest : List Part} {raw : Text} {hraw : opens? raw = none}
    {q : Pull} (h : Lexer.pull? o ((done.flatMap Part.lines).length + 1) raw.dropLineEnd = some q) :
    q ∈ (gather o [] (done ++ .line raw hraw :: rest)).store.pulls := by
  have hfound : .pull q ∈ ((Part.line raw hraw).found o (done.flatMap Part.lines)).blocks := by
    simp only [Part.found, h]
    exact List.mem_singleton_self _
  rw [Store.mem_pulls, gather_part]
  simp [hfound]

theorem tidy_of_inPlace (houtline : Outline parts text.rawLines)
    (h : ∀ q ∈ (gather o [] parts).store.pulls, q.InPlace (gather o [] parts).store.pulls text) :
    ∀ p ∈ parts, p.Tidy o ((gather o [] parts).store.pulls.map (·.marker)) := by
  intro p hp
  obtain ⟨done, rest, rfl⟩ := List.append_of_mem hp
  have hsplit : text.rawLines =
      done.flatMap Part.lines ++ (p.lines ++ rest.flatMap Part.lines) := by
    simp [← houtline.flatMap_lines]
  cases hq : p.request? o with
  | some q =>
    cases p with
    | line raw hraw =>
      let q' : Pull := { q with toRegion := q.toRegion.shift ((done.flatMap Part.lines).length + 1) }
      have hpull : Lexer.pull? o ((done.flatMap Part.lines).length + 1) raw.dropLineEnd =
          some q' := by
        simp only [Part.request?] at hq
        rw [pull?_eq_map, hq]
        rfl
      have hmem : q' ∈ (gather o [] (done ++ .line raw hraw :: rest)).store.pulls :=
        mem_pulls_of_pull? hpull
      obtain ⟨-, hne, hlf⟩ := of_mem_pulls houtline hmem
      have hline : lf ∉ raw.dropLineEnd :=
        lf_notMem_dropLineEnd (t := text) (by simp [hsplit, Part.lines])
      have hstarts := (of_pull?_eq_some hline hpull).1.trans (trimEndWhile_isPrefix isLineEnd raw)
      obtain ⟨tail, hraw', htail, -⟩ := (h _ hmem).of_isInfix hsplit hne hlf hstarts.isInfix
      rw [Part.Tidy, hq]
      exact ⟨tail, by rw [Part.lines, hraw'], htail⟩
    | enclosed r => cases hq
    | unclosed r => cases hq
  | none =>
    refine Part.tidy_of_request?_eq_none hq fun raw hraw m hm hinside => ?_
    obtain ⟨q, hmem, rfl⟩ := List.mem_map.1 hm
    obtain ⟨-, hne, hlf⟩ := of_mem_pulls houtline hmem
    obtain ⟨above, below, hlines⟩ := List.append_of_mem hraw
    rw [hlines, List.append_assoc, List.cons_append, ← List.append_assoc] at hsplit
    obtain ⟨-, -, -, q', hq', -, hfirst⟩ := (h q hmem).of_isInfix hsplit hne hlf hinside
    have hsome := isSome_request? hq' (by rw [hfirst, List.length_append]; omega)
      (by rw [hfirst, hlines]; simp only [List.length_append, List.length_cons]; omega)
    simp [hq] at hsome

end Start

variable {source relDir text : Text}

theorem exists_pending {chosen : List (Import × Text)}
    (hchosen : chosen.map Prod.fst = (lex source relDir text).store.imports)
    (hplain : ∀ c ∈ chosen, c.2.Plain)
    (hpulls : ∀ q ∈ (lex source relDir text).store.pulls,
      q.InPlace (lex source relDir text).store.pulls text) :
    ∃ out, spliceImports text chosen = .ok out ∧
      Pending ⟨source, relDir⟩ ((lex source relDir text).store.pulls.map (·.marker))
        (((lex source relDir text).blocks.map Block.unplaced).filter Block.lasts) out
        ((lex source relDir text).store.pulls.map Pull.unplaced) := by
  obtain ⟨parts, houtline⟩ := exists_outline text.rawLines
  rw [lex_eq_gather source relDir houtline] at hchosen hpulls ⊢
  obtain ⟨out, new, hout, hnew, hspliced⟩ :=
    @exists_spliced ⟨source, relDir⟩ text [] parts chosen houtline hchosen hplain
  have hmarkers : ∀ m ∈ (gather ⟨source, relDir⟩ [] parts).store.pulls.map (·.marker),
      Marker.opening <+: m ∧ lf ∉ m := by
    intro m hm
    obtain ⟨q, hq, rfl⟩ := List.mem_map.1 hm
    obtain ⟨hopening, -, hlf⟩ := of_mem_pulls houtline hq
    exact ⟨hopening, hlf⟩
  refine ⟨out, hout, new, hnew, ?_, ?_, ?_⟩
  · rw [map_unplaced_pulls]
    exact filterMap_request?_spliced hspliced
  · rw [map_unplaced_gather]
    exact filter_held_spliced hspliced
  · exact tidy_spliced hspliced hmarkers (tidy_of_inPlace houtline hpulls)

end Patch

end Tangle
