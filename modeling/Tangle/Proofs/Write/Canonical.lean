import Tangle.Proofs.Document.Request
import Tangle.Proofs.Write.Pull

namespace Tangle

open Text

namespace Text

theorem not_infix_of_cut {sep t before rest : Text} (hne : sep ≠ [])
    (h : cut sep t = some (before, rest)) : ¬ sep <:+: before := by
  induction t generalizing before with
  | nil => simp [cut, hne] at h
  | cons b t ih =>
    simp only [cut] at h
    split at h
    next =>
      simp only [Option.some.injEq, Prod.mk.injEq] at h
      simpa [← h.1] using hne
    next hnone =>
      obtain ⟨⟨x, y⟩, hxy, heq⟩ := Option.map_eq_some_iff.1 h
      simp only [Prod.mk.injEq] at heq
      obtain ⟨rfl, rfl⟩ := heq
      rw [← Option.not_isSome_iff_eq_none, after?_isSome] at hnone
      rw [List.infix_cons_iff, not_or]
      refine ⟨fun hlead => hnone (hlead.trans ?_), ih hxy⟩
      rw [cut_eq_some hxy, List.append_assoc, ← List.cons_append]
      exact List.prefix_append ..

section Edge

variable {w lead tail t : Text}

theorem infix_of_infix_lead (hlead : ¬ w <:+: lead) (hedge : ∀ s ∈ lead.tails, s <+: w → s = [])
    (h : w <:+: lead ++ t) : w <:+: t := by
  rcases List.infix_append_iff.1 h with h | h | ⟨s, u, rfl, hs, hu⟩
  · exact absurd h hlead
  · exact h
  · obtain rfl := hedge s ((List.mem_tails ..).2 hs) (List.prefix_append ..)
    exact hu.isInfix

theorem infix_of_infix_tail (htail : ¬ w <:+: tail) (hedge : ∀ s ∈ tail.inits, s <:+ w → s = [])
    (h : w <:+: t ++ tail) : w <:+: t := by
  rcases List.infix_append_iff.1 h with h | h | ⟨u, s, rfl, hu, hs⟩
  · exact h
  · exact absurd h htail
  · obtain rfl := hedge s ((List.mem_inits ..).2 hs) (List.suffix_append ..)
    rw [List.append_nil]
    exact hu.isInfix

end Edge

end Text

namespace Marker

variable {path name line : Text}

structure IsRequest (path name : Text) : Prop where
  isField_path : IsField path
  comma_notMem_path : comma ∉ path
  isField_name : IsField name
  closing_name : ¬ closing <:+: name.tail

theorem isField_of_lastField? {t rest : Text} (h : lastField? t = some (name, rest))
    (hink : name.all isSpace = false) :
    IsField name ∧ ¬ closing <:+: name.tail ∧ name <:+: t := by
  obtain ⟨blanks, hblanks, ⟨b, before, hb, rfl, hcut, rfl⟩ | ⟨s, hs, -, rfl⟩⟩ := lastField?_cases h
  · have hfield := isField_trimEndWhile hb before
    have hprefix := trimEndWhile_isPrefix isSpace (b :: before)
    refine ⟨hfield, fun hclosing => not_infix_of_cut (by decide) hcut (hclosing.trans ?_),
      hprefix.isInfix.trans ⟨blanks, closing ++ rest, by simp⟩⟩
    obtain ⟨c, tail, hname⟩ := List.exists_cons_of_ne_nil hfield.ne_nil
    rw [hname, List.cons_prefix_cons] at hprefix
    rw [hname]
    exact hprefix.2.isInfix
  · -- The name is the last of the blanks.
    simp [hblanks s (List.mem_of_getLast? hs)] at hink

theorem isRequest_of_pullRequest? {q : PullRequest} (h : pullRequest? line = some q)
    (hpath : q.path.all isSpace = false) (hname : q.name.all isSpace = false) :
    IsRequest q.path q.name ∧ q.path <:+: line ∧ q.name <:+: line := by
  simp only [pullRequest?, Option.bind_eq_bind, Option.bind_eq_some_iff] at h
  obtain ⟨t₁, hopening, t₂, hpull, ⟨pathField, t₃⟩, hcut, path, hfield, t₄, hblock, ⟨name, rest⟩,
    hlast, hq⟩ := h
  obtain rfl := Option.some.inj hq
  obtain ⟨hfieldPath, hinfixPath⟩ := isField_of_field? hfield hpath
  obtain ⟨hfieldName, hclosing, hinfixName⟩ := isField_of_lastField? hlast hname
  have h₁ : t₁ <:+ line := by
    rw [after?_eq_some hopening]
    exact List.suffix_append ..
  have h₂ : pathField ++ comma :: t₃ <:+ line := by
    rw [← cutByte_eq_some hcut]
    exact (suffix_of_word? hpull).trans h₁
  have h₄ : t₄ <:+ pathField ++ comma :: t₃ :=
    (suffix_of_word? hblock).trans ((List.suffix_cons comma t₃).trans (List.suffix_append ..))
  refine ⟨⟨hfieldPath, fun hcomma => ?_, hfieldName, hclosing⟩, ?_, ?_⟩
  · exact notMem_of_cutByte_eq_some hcut (hinfixPath.subset hcomma)
  · exact hinfixPath.trans ((List.prefix_append ..).isInfix.trans h₂.isInfix)
  · exact hinfixName.trans (h₄.trans h₂).isInfix

theorem IsRequest.lastField?_eq (h : IsRequest path name) :
    lastField? (space :: (name ++ space :: closing)) = some (name, []) := by
  obtain ⟨b, rest, rfl⟩ := List.exists_cons_of_ne_nil h.isField_name.ne_nil
  have hclosing : ¬ closing <:+: rest := h.closing_name
  have hself : cut closing closing = some ([], []) := by decide
  have hcut : cut closing (rest ++ space :: closing) = some (rest ++ [space], []) := by
    rw [cut_append_cons (by decide) (by decide) hclosing, hself]
    rfl
  have hspace : ∀ b ∈ [space], isSpace b = true := by decide +kernel
  have htrim : trimEndWhile isSpace (b :: (rest ++ [space])) = b :: rest :=
    h.isField_name.trimEndWhile_append hspace
  have hread := lastField?_of_cut hspace (h.isField_name.isSpace_head b rfl) hcut
  rwa [htrim] at hread

theorem IsRequest.pullRequest?_pull (h : IsRequest path name) :
    pullRequest? (pull path name false) = some ⟨path, name, pull path name false⟩ := by
  have hline : pull path name false = opening ++ (ofString " pull_from:" ++ (space :: path ++
      comma :: (ofString " block:" ++ (space :: (name ++ space :: closing))))) := by
    have h₁ : ofString "<!-- pull_from: " = opening ++ (ofString " pull_from:" ++ [space]) := rfl
    have h₂ : ofString ", block: " = comma :: (ofString " block:" ++ [space]) := rfl
    have h₃ : ofString " -->" = space :: closing := rfl
    simp [pull, h₁, h₂, h₃]
  have hpull : ∀ u, word? "pull_from:" (ofString " pull_from:" ++ u) = some u := fun _ => rfl
  have hblock : ∀ u, word? "block:" (ofString " block:" ++ u) = some u := fun _ => rfl
  have hcut : ∀ u, cutByte comma (space :: path ++ comma :: u) = some (space :: path, u) := by
    intro u
    apply cutByte_append
    rw [List.mem_cons, not_or]
    exact ⟨by decide, h.comma_notMem_path⟩
  have hfield : field? (space :: path) = some path := by
    have hread := h.isField_path.field?_eq (w := []) (by simp)
    rwa [List.append_nil] at hread
  rw [hline]
  simp only [pullRequest?, after?_append, hpull, hcut, hfield, hblock, h.lastField?_eq,
    Option.bind_eq_bind, Option.bind_some, List.length_nil, Nat.sub_zero, List.take_length]
  rfl

theorem pull_ne_nil (path name : Text) (processed : Bool) : pull path name processed ≠ [] := by
  cases processed with
  | false => exact List.append_ne_nil_of_right_ne_nil _ (by decide)
  | true => exact List.append_ne_nil_of_right_ne_nil _ (by decide)

theorem processedWords_infix_pull (h : processedWords <:+: pull path name false) :
    processedWords <:+: path ∨ processedWords <:+: name := by
  have hcomma : ofString ", block: " = comma :: ofString " block: " := rfl
  rw [pull, if_neg (by decide), hcomma] at h
  have h := infix_of_infix_tail (by decide +kernel) (by decide +kernel) h
  rw [List.append_assoc, List.cons_append] at h
  rcases infix_of_infix_append_cons (by decide +kernel) h with h | h
  · exact .inl (infix_of_infix_lead (by decide +kernel) (by decide +kernel) h)
  · exact .inr (infix_of_infix_lead (by decide +kernel) (by decide +kernel) h)

end Marker

namespace Lexer

variable {source relDir line : Text}

theorem lex_line (hne : line ≠ []) (hlf : lf ∉ line) (hopens : opens? line = none) :
    lex source relDir line = (Part.line line hopens).found ⟨source, relDir⟩ [] := by
  have houtline : Outline [.line line hopens] line.rawLines := by
    rw [rawLines_eq_singleton hne hlf]
    exact .cons (p := .line line hopens) trivial .nil
  rw [lex_eq_gather source relDir houtline, gather_cons]
  exact Lexed.append_empty _

variable {path name : Text}

theorem lex_pull_processed (h : lf ∉ Marker.pull path name true) :
    lex source relDir (Marker.pull path name true) = .empty := by
  have hsilent : Silent (Marker.pull path name true) :=
    (Marker.silent_pull path name).of_dropLineEnd_eq (dropLineEnd_append_lf _).symm
  rw [lex_line (Marker.pull_ne_nil _ _ _) h hsilent.1, hsilent.found]

theorem lex_pull_unprocessed (hrequest : Marker.IsRequest path name)
    (hlf : lf ∉ Marker.pull path name false)
    (hwords : ¬ Marker.processedWords <:+: Marker.pull path name false) :
    lex source relDir (Marker.pull path name false) =
      .block (.pull ⟨⟨source, [], 1, 1⟩, path, name, Marker.pull path name false⟩) := by
  have hdrop := Marker.dropLineEnd_pull path name false
  have hopens : opens? (Marker.pull path name false) = none := by
    rw [opens?, hdrop]
    rfl
  have hpull : pull? ⟨source, relDir⟩ 1 (Marker.pull path name false).dropLineEnd =
      some ⟨⟨source, [], 1, 1⟩, path, name, Marker.pull path name false⟩ := by
    rw [hdrop, pull?_eq_some_iff]
    refine ⟨hrequest.pullRequest?_pull, ?_, rfl⟩
    rwa [← Bool.not_eq_true, contains_iff_isInfix]
  rw [lex_line (Marker.pull_ne_nil _ _ _) hlf hopens]
  simp only [Part.found, List.length_nil, Nat.zero_add, hpull]

end Lexer

open Lexer in
/-- A request that the lexer found is found again in the canonical marker for it, which holds nothing
else, and it is not found in the marker once that is processed. -/
theorem lex_canonical_marker {source relDir text : Text} {p : Pull}
    (hp : .pull p ∈ (lex source relDir text).blocks) (hpath : p.path.all isSpace = false)
    (hname : p.name.all isSpace = false) (source' relDir' : Text) :
    lex source' relDir' (Marker.pull p.path p.name false) =
        .block (.pull ⟨⟨source', [], 1, 1⟩, p.path, p.name, Marker.pull p.path p.name false⟩) ∧
      lex source' relDir' (Marker.pull p.path p.name true) = .empty ∧
      ∃ (above : List Text) (raw : Text) (below : List Text),
        text.rawLines = above ++ raw :: below ∧ p.first = ↑(above.length + 1) ∧
          p.marker <+: raw.dropLineEnd := by
  obtain ⟨done, raw, hraw, later, houtline, hpull, -⟩ :=
    Patch.exists_outline_of_mem_pulls (Store.mem_pulls.2 hp)
  have hsplit : text.rawLines = done.flatMap Part.lines ++ raw :: later.flatMap Part.lines := by
    simp [← houtline.flatMap_lines, Part.lines]
  have hline : lf ∉ raw.dropLineEnd := lf_notMem_dropLineEnd (t := text) (by simp [hsplit])
  obtain ⟨hmarker, -, -, -, hlfPath, hlfName⟩ := Patch.of_pull?_eq_some hline hpull
  obtain ⟨hrequest, hwords, hregion⟩ := pull?_eq_some_iff.1 hpull
  obtain ⟨hcanonical, hinfixPath, hinfixName⟩ :=
    Marker.isRequest_of_pullRequest? hrequest hpath hname
  have hlf := Marker.lf_notMem_pull hlfPath hlfName
  rw [← Bool.not_eq_true, contains_iff_isInfix] at hwords
  refine ⟨lex_pull_unprocessed hcanonical (hlf false) fun hinfix => hwords ?_,
    lex_pull_processed (hlf true), _, raw, _, hsplit, by rw [hregion], hmarker⟩
  rcases Marker.processedWords_infix_pull hinfix with hinfix | hinfix
  · exact hinfix.trans hinfixPath
  · exact hinfix.trans hinfixName

def scrawl : Text := "# A\n<!--pull_from:e f.md\t,block:-->c, <!-- d- -->, processed: no -->\r\n"

def scrawledPull : Pull :=
  ⟨⟨"d.md", [], 2, 2⟩, "e f.md", "-->c, <!-- d-", "<!--pull_from:e f.md\t,block:-->c, <!-- d- -->"⟩

theorem lex_canonical_marker_scrawl :
    .pull scrawledPull ∈ (lex "d.md" [] scrawl).blocks ∧
      lex "x.md" [] "<!-- pull_from: e f.md, block: -->c, <!-- d- -->" =
        .block (.pull ⟨⟨"x.md", [], 1, 1⟩, "e f.md", "-->c, <!-- d-",
          "<!-- pull_from: e f.md, block: -->c, <!-- d- -->"⟩) ∧
      lex "x.md" [] "<!-- pull_from: e f.md, block: -->c, <!-- d-, processed: true -->" = .empty := by
  have hp : .pull scrawledPull ∈ (lex "d.md" [] scrawl).blocks := by decide +kernel
  have hasked : Marker.pull scrawledPull.path scrawledPull.name false =
      "<!-- pull_from: e f.md, block: -->c, <!-- d- -->" := by
    decide +kernel
  have hanswered : Marker.pull scrawledPull.path scrawledPull.name true =
      "<!-- pull_from: e f.md, block: -->c, <!-- d-, processed: true -->" := by
    decide +kernel
  obtain ⟨hfound, hnothing, -⟩ :=
    lex_canonical_marker hp (by decide +kernel) (by decide +kernel) "x.md" []
  rw [hasked] at hfound
  rw [hanswered] at hnothing
  exact ⟨hp, hfound, hnothing⟩

end Tangle
