import Tangle.Proofs.Document.Edit
import Tangle.Proofs.Write.Import

namespace Tangle

open Text

namespace Fence

theorem fst_splitGroups_isPrefix (before : Option UInt8) (t : Text) :
    (splitGroups before t).1 <+: t := by
  induction t generalizing before with
  | nil => exact List.prefix_rfl
  | cons b t ih =>
    simp only [splitGroups]
    split
    next => exact List.nil_prefix
    next => exact (List.prefix_cons_inj b).2 (ih _)

theorem snd_splitGroups_of_isPrefix {before : Option UInt8} {t u : Text}
    (h : u <+: (splitGroups before t).1) : (splitGroups before u).2 = [] := by
  induction t generalizing before u with
  | nil =>
    obtain rfl := List.prefix_nil.1 h
    rfl
  | cons b t ih =>
    simp only [splitGroups] at h
    split at h
    next =>
      obtain rfl := List.prefix_nil.1 h
      rfl
    next hstart =>
      cases u with
      | nil => rfl
      | cons c u =>
        obtain ⟨rfl, hu⟩ := List.cons_prefix_cons.1 h
        have hnone : startsGroup before (c :: u) = false := by
          have hlonger : c :: u <+: c :: t :=
            (List.prefix_cons_inj c).2 (hu.trans (fst_splitGroups_isPrefix _ t))
          simp only [startsGroup, startsWith, Bool.and_eq_true, not_and, Bool.not_eq_true,
            List.isPrefixOf_iff_prefix] at hstart
          simp only [startsGroup, startsWith, Bool.and_eq_false_imp, List.isPrefixOf_iff_prefix]
          exact fun hlit => hstart (hlit.trans hlonger)
        simp [splitGroups, hnone, ih hu]

theorem plain_isPrefix (line : Text) : plain line <+: (splitGroups none line).1 :=
  trimEndWhile_isPrefix _ _

theorem isFence_plain {line : Text} (h : Lexer.isFence line = true) :
    Lexer.isFence (plain line) = true := by
  have hmark : ∀ b ∈ Lexer.fenceMark, (b == space || b == tab) = false := by
    decide +kernel
  obtain ⟨rest, rfl⟩ := List.isPrefixOf_iff_prefix.1 h
  rw [plain, Lexer.isFence, startsWith_trimEndWhile hmark, startsWith,
    List.isPrefixOf_iff_prefix]
  -- The marks of a fence start no group.
  exact ⟨(splitGroups (some backtick) rest).1, rfl⟩

theorem ofLine_of_prefix_plain {line u : Text} (h : u <+: plain line) :
    Attributes.ofLine u = [] := by
  rw [Attributes.ofLine, groups, snd_splitGroups_of_isPrefix (h.trans (plain_isPrefix line))]
  rfl

end Fence

namespace Patch

open Lexer

theorem withLf_ended (t : Text) : (withLf t).Ended := by
  unfold withLf
  split
  next h => exact h
  next => exact .inr (by simp [endsWith_iff])

theorem withLf_append_cons (line t : Text) : withLf (line ++ lf :: t) = line ++ lf :: withLf t := by
  by_cases ht : t = []
  · simp [withLf, ht, endsWith_iff]
  · have hends : (line ++ lf :: t).endsWith [lf] = t.endsWith [lf] := by
      rw [← List.singleton_append, ← List.append_assoc, endsWith_append ht]
    cases h : t.endsWith [lf] <;> simp [withLf, hends, h, ht]

theorem withLf_eq_append {line : Text} (hne : line ≠ []) (h : lf ∉ line) :
    withLf line = line ++ [lf] :=
  if_neg (not_ended hne h)

theorem rawLines_withLf (t : Text) : (withLf t).rawLines = t.rawLines.map withLf := by
  induction t using lines_induction with
  | nil => rfl
  | last line hne hline =>
    rw [withLf_eq_append hne hline, rawLines_append_cons hline, rawLines_eq_singleton hne hline]
    simp [rawLines, withLf_eq_append hne hline]
  | cons line t hline ih =>
    have hends : (line ++ [lf]).endsWith [lf] = true := by simp [endsWith_iff]
    rw [withLf_append_cons, rawLines_append_cons hline, rawLines_append_cons hline, ih,
      List.map_cons, withLf_of_endsWith hends]

theorem isFence_withLf (raw : Text) : isFence (withLf raw) = isFence raw := by
  unfold withLf
  split
  next => rfl
  next => rw [← isFence_dropLineEnd, dropLineEnd_append_lf, isFence_dropLineEnd]

section Region

variable (r : Enclosed) (hr : r.delimiter = .fence) (content : Text)
  (hcontent : ∀ raw ∈ content.rawLines, isFence raw = false)

def importedRegion : Enclosed where
  delimiter := .fence
  opening := Fence.plain r.opening.dropLineEnd ++ [lf]
  inner := content.rawLines.map withLf
  opens?_opening := by
    have hopening := (r.isFence_of_delimiter hr).1
    rw [← isFence_dropLineEnd] at hopening
    rw [opens?, dropLineEnd_append_lf, isFence_dropLineEnd, if_pos (Fence.isFence_plain hopening)]
  closes_inner raw hraw := by
    obtain ⟨line, hline, rfl⟩ := List.mem_map.1 hraw
    rw [closes_fence, isFence_withLf]
    exact hcontent line hline
  closing := r.closing
  closes_closing := by
    rw [closes_fence]
    exact (r.isFence_of_delimiter hr).2.1

theorem length_lines_importedRegion :
    (importedRegion r hr content hcontent).lines.length = content.rawLines.length + 2 := by
  simp [importedRegion, Enclosed.lines]

theorem blocks_importedRegion (o : Origin) (before : List Text) :
    ((Part.enclosed (importedRegion r hr content hcontent)).found o before).blocks = [] := by
  have hattrs : Attributes.ofLine (Fence.plain r.opening.dropLineEnd ++ [lf]).dropLineEnd = [] := by
    rw [dropLineEnd_append_lf]
    exact Fence.ofLine_of_prefix_plain (trimEndWhile_isPrefix _ _)
  simp only [Part.found, importedRegion, Delimiter.content, hattrs]
  split <;> rfl

theorem diagnostics_importedRegion
    (hplain : isLiterate (Fence.plain r.opening.dropLineEnd) = false) (o : Origin)
    (before : List Text) :
    ((Part.enclosed (importedRegion r hr content hcontent)).found o before).diagnostics = [] := by
  have hliterate : isLiterate (Fence.plain r.opening.dropLineEnd ++ [lf]).dropLineEnd = false := by
    rw [dropLineEnd_append_lf]
    rw [← Bool.not_eq_true, isLiterate, contains_iff_isInfix] at hplain ⊢
    exact fun h => hplain (h.trans (trimEndWhile_isPrefix _ _).isInfix)
  simp [Part.found, importedRegion, Delimiter.content, hliterate, Lexed.span, Lexed.empty]

end Region

variable {source relDir text content : Text} {imp : Import}

theorem Stands.rawLines_splice {before after : List Text} {r : Enclosed}
    (h : Stands imp before r after text.rawLines) (hr : r.delimiter = .fence)
    (hcontent : ∀ raw ∈ content.rawLines, isFence raw = false) :
    rawLines (before.flatten ++ (Fence.plain r.opening.dropLineEnd ++ [lf] ++ withLf content) ++
        r.closing ++ after.flatten) =
      before ++ ((importedRegion r hr content hcontent).lines ++ after) := by
  have hsplit : text.rawLines = (before ++ r.opening :: r.inner) ++ r.closing :: after := by
    simp [h.lines_eq, Enclosed.lines]
  have hbefore := rawLines_parted (h.lines_eq.trans (List.append_assoc ..))
  have hafter := (rawLines_parted hsplit).2.1
  have hlf : lf ∉ Fence.plain r.opening.dropLineEnd := by
    have hopening : r.opening ∈ text.rawLines := by simp [hsplit]
    have hlead := (Fence.plain_isPrefix r.opening.dropLineEnd).trans
      (Fence.fst_splitGroups_isPrefix none _)
    exact fun hlf => lf_notMem_dropLineEnd hopening (hlead.subset hlf)
  have hended : Ended before.flatten := hbefore.2.2 (by simp [Enclosed.lines])
  rw [List.flatten_cons] at hafter
  simp only [List.append_assoc]
  rw [rawLines_append hended, hbefore.1, List.singleton_append, rawLines_append_cons hlf,
    rawLines_append (withLf_ended content), rawLines_withLf, hafter]
  simp [importedRegion, Enclosed.lines]

theorem stands_of_mem_found {o : Origin} {done rest : List Part} {r : Enclosed} {lines : List Text}
    (houtline : Outline (done ++ .enclosed r :: rest) lines)
    (hb : .importing imp ∈ ((Part.enclosed r).found o (done.flatMap Part.lines)).blocks) :
    r.delimiter = .fence ∧
      Stands imp (done.flatMap Part.lines) r (rest.flatMap Part.lines) lines := by
  obtain ⟨hfirst, hlast⟩ := lines_of_mem_blocks hb
  rcases mem_blocks_found hb with ⟨_, _, _, hline, _⟩ | ⟨_, heq, -, -, hfenced⟩
  · cases hline
  · cases heq
    obtain ⟨hdelimiter, htype⟩ := hfenced rfl
    obtain ⟨hopening, hclosing, -⟩ := r.isFence_of_delimiter hdelimiter
    refine ⟨hdelimiter, ?_, hfirst, hlast, ?_, hclosing⟩
    · simp [← houtline.flatMap_lines, Part.lines]
    · rw [isImportFence, isFence_dropLineEnd, hopening, ← htype]
      rfl

theorem exists_outline_of_mem_imports (h : imp ∈ (lex source relDir text).store.imports) :
    ∃ done r rest, Outline (done ++ .enclosed r :: rest) text.rawLines ∧ r.delimiter = .fence ∧
      .importing imp ∈ ((Part.enclosed r).found ⟨source, relDir⟩ (done.flatMap Part.lines)).blocks ∧
      Stands imp (done.flatMap Part.lines) r (rest.flatMap Part.lines) text.rawLines := by
  obtain ⟨done, p, rest, houtline, hb⟩ := exists_outline_of_mem_blocks (Store.mem_imports.1 h)
  rcases mem_blocks_found hb with ⟨_, _, _, _, _, hpull⟩ | ⟨r, rfl, -⟩
  · cases hpull
  · obtain ⟨hdelimiter, hstands⟩ := stands_of_mem_found houtline hb
    exact ⟨done, r, rest, houtline, hdelimiter, hb, hstands⟩

/-- Splicing one import into a document takes its block away and keeps all others. -/
theorem lex_spliceImport (himp : imp ∈ (lex source relDir text).store.imports)
    (hplain : isLiterate
      (Fence.plain (text.rawLines.getD (imp.first.toNat - 1) []).dropLineEnd) = false)
    (hcontent : ∀ raw ∈ content.rawLines, isFence raw = false) :
    ∃ out, spliceImport text imp.first imp.last content = .ok out ∧
      (lex source relDir out).blocks =
        ((lex source relDir text).blocks.filter (· ≠ .importing imp)).map
          (·.moveBelow imp.last (content.rawLines.length - (imp.last - imp.first - 1))) ∧
      (lex source relDir out).diagnostics = (lex source relDir text).diagnostics.map
        (·.moveBelow imp.last (content.rawLines.length - (imp.last - imp.first - 1))) ∧
      ∀ other ∈ (lex source relDir out).store.imports, other.first ≠ imp.first := by
  obtain ⟨done, r, rest, houtline, hr, hb, h⟩ := exists_outline_of_mem_imports himp
  obtain ⟨hblocks, hdiagnostics⟩ := found_of_mem_blocks hb
  let new := Part.enclosed (importedRegion r hr content hcontent)
  have hnew : ∀ o before, gather o before [new] = new.found o before := fun o before =>
    Lexed.append_empty _
  have hnone := blocks_importedRegion r hr content hcontent
  rw [h.getD_first] at hplain
  have hk : rest ≠ [] → (content.rawLines.length : Int) - (imp.last - imp.first - 1) =
      ([new].flatMap Part.lines).length - (Part.enclosed r).lines.length := by
    intro _
    have hfirst := h.first_eq
    have hlast := h.last_eq
    rw [List.length_append] at hlast
    simp only [new, List.flatMap_cons, List.flatMap_nil, List.append_nil, Part.lines,
      length_lines_importedRegion]
    omega
  have hout : Outline (done ++ ([new] ++ rest)) (rawLines ((done.flatMap Part.lines).flatten ++
      (Fence.plain r.opening.dropLineEnd ++ [lf] ++ withLf content) ++ r.closing ++
      (rest.flatMap Part.lines).flatten)) := by
    have hclosed : ∀ q ∈ [new], q.IsClosed := by simp [new, Part.IsClosed]
    have hexchange := houtline.exchange trivial hclosed
    rw [List.flatMap_singleton] at hexchange
    rw [h.rawLines_splice hr hcontent]
    exact hexchange
  refine ⟨_, h.spliceImport_eq content, ?_⟩
  rw [lex_eq_gather source relDir houtline, lex_eq_gather source relDir hout]
  refine ⟨blocks_exchange hblocks (by rw [hnew, hnone]) hk, ?_, fun other hother => ?_⟩
  · apply diagnostics_exchange h.last_eq hdiagnostics _ hk
    rw [hnew]
    exact diagnostics_importedRegion r hr content hcontent hplain _ _
  · rw [h.first_eq]
    exact first_ne_of_exchange (by rw [hnew, hnone]) (by simp) (Store.mem_imports.1 hother)

def leaf : Text :=
  "```go lit-type:code lit-name:a\nx\n```\n```js lit-type:import lit-file:n.js\nold\nlines\n```\r\n" ++
    "<!-- pull_from: e.md, block: c -->\n```lit-type:code\n```\n```js"

def leafImport : Import := ⟨⟨"d.md", "old\nlines\n", 4, 7⟩, ⟨"n.js", 0, 0, []⟩⟩

theorem lex_spliceImport_leaf :
    leafImport ∈ (lex "d.md" [] leaf).store.imports ∧
      ∃ out, spliceImport leaf 4 7 "1\n<!-- 2\n3" = .ok out ∧
        (lex "d.md" [] out).blocks =
          [.code ⟨⟨"d.md", "x\n", 1, 3⟩, "a"⟩,
            .pull ⟨⟨"d.md", [], 9, 9⟩, "e.md", "c", "<!-- pull_from: e.md, block: c -->"⟩] ∧
        (lex "d.md" [] out).diagnostics =
          [⟨"d.md", 10, "code block is missing lit-name"⟩,
            ⟨"d.md", 12, "block opened here is never closed"⟩] := by
  have himp : leafImport ∈ (lex "d.md" [] leaf).store.imports := by decide +kernel
  have hplain : isLiterate
      (Fence.plain (leaf.rawLines.getD (leafImport.first.toNat - 1) []).dropLineEnd) = false := by
    decide +kernel
  have hcontent : ∀ raw ∈ rawLines "1\n<!-- 2\n3", isFence raw = false := by decide +kernel
  obtain ⟨out, hout, hblocks, hdiagnostics, -⟩ := lex_spliceImport himp hplain hcontent
  refine ⟨himp, out, hout, hblocks.trans ?_, hdiagnostics.trans ?_⟩
  · decide +kernel
  · decide +kernel

end Patch

end Tangle
