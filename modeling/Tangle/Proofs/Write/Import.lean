import Tangle.Proofs.Document.Name
import Tangle.Proofs.Document.Partition
import Tangle.Proofs.Files.Tree
import Tangle.Write.Writer

namespace Tangle

open Text

theorem Block.eq_importing {b : Block} {imp : Import}
    (h : (match b with | .importing b => some b | _ => none) = some imp) : b = .importing imp := by
  cases b with
  | importing b =>
    cases h
    rfl
  | _ => cases h

namespace Patch

/-- What becomes of line `n`. The opening fence of a chosen import loses its attributes and is
followed by the imported text, the closing fence stays, and the lines between them go. -/
def replaceLine (chosen : List (Import × Text)) (n : Nat) (raw : Text) : Text :=
  match chosen.find? fun (imp, _) => imp.first ≤ n ∧ n ≤ imp.last with
  | none => raw
  | some (imp, content) =>
    if n = imp.first then Fence.plain raw.dropLineEnd ++ [lf] ++ withLf content
    else if n = imp.last then raw
    else []

def replaceLines (chosen : List (Import × Text)) (n : Nat) (lines : List Text) : Text :=
  (lines.zipIdx n).flatMap fun (raw, k) => replaceLine chosen k raw

def replaceAll (chosen : List (Import × Text)) (text : Text) : Text :=
  replaceLines chosen 1 text.rawLines

structure Stands (imp : Import) (before : List Text) (r : Lexer.Enclosed) (after lines : List Text) :
    Prop where
  lines_eq : lines = before ++ r.lines ++ after
  first_eq : imp.first = ↑(before.length + 1)
  last_eq : imp.last = ↑(before ++ r.lines).length
  isImportFence_opening : isImportFence r.opening.dropLineEnd = true
  isFence_closing : Lexer.isFence r.closing = true

section Splice

theorem withLf_of_endsWith {t : Text} (h : t.endsWith [lf] = true) : withLf t = t := by
  simp [withLf, h]

theorem dropFinalLf_of_endsWith {t : Text} (h : t.endsWith [lf] = false) : dropFinalLf t = t := by
  simp [dropFinalLf, h]

theorem restore_end {closing tail : Text} (hne : closing ≠ [])
    (hended : tail ≠ [] → closing.endsWith [lf] = true) (old new : Text) :
    (if (old ++ closing ++ tail).endsWith [lf] then new ++ withLf closing ++ tail
      else dropFinalLf (new ++ withLf closing ++ tail)) = new ++ closing ++ tail := by
  cases hclosing : closing.endsWith [lf] with
  | true =>
    have hrest : closing ++ tail ≠ [] := List.append_ne_nil_of_left_ne_nil hne tail
    rw [withLf_of_endsWith hclosing, List.append_assoc, List.append_assoc, endsWith_append hrest]
    split
    next => rfl
    next h =>
      rw [dropFinalLf_of_endsWith]
      rw [endsWith_append hrest]
      simpa using h
  | false =>
    obtain rfl : tail = [] := by
      by_contra htail
      simp [hended htail] at hclosing
    have hfinal : (new ++ (closing ++ [lf])).endsWith [lf] = true := by
      simp [endsWith_iff]
    simp [endsWith_append hne, hclosing, withLf, hne, dropFinalLf, hfinal]

structure Range where
  before : List Text
  opening : Text
  rest : List Text
  after : List Text

namespace Range

def closing (r : Range) : Text := (r.opening :: r.rest).getLast (by simp)

def Fenced (r : Range) : Prop :=
  isImportFence r.opening.dropLineEnd = true ∧ Lexer.isFence r.closing = true

def replaced (r : Range) (content : Text) : Text :=
  r.before.flatten ++ (Fence.plain r.opening.dropLineEnd ++ [lf] ++ withLf content) ++ r.closing ++
    r.after.flatten

structure Covers (r : Range) (lines : List Text) (first last : Int) : Prop where
  lines_eq : lines = r.before ++ r.opening :: r.rest ++ r.after
  first_eq : first = ↑(r.before.length + 1)
  last_eq : last = ↑(r.before ++ r.opening :: r.rest).length

variable {r : Range} {lines : List Text} {first last : Int} {text : Text}

theorem dropLast_append_closing (r : Range) :
    (r.opening :: r.rest).dropLast ++ [r.closing] = r.opening :: r.rest :=
  List.dropLast_append_getLast _

theorem Covers.lines_eq_closing (h : r.Covers lines first last) :
    lines = (r.before ++ (r.opening :: r.rest).dropLast) ++ r.closing :: r.after := by
  rw [h.lines_eq, ← r.dropLast_append_closing]
  simp

theorem Covers.closing_ended (h : r.Covers text.rawLines first last) (hne : r.closing ≠ [])
    (hafter : r.after.flatten ≠ []) : r.closing.endsWith [lf] = true := by
  have hafter : r.after ≠ [] := by
    intro hnil
    simp [hnil] at hafter
  have hended := (rawLines_parted h.lines_eq).2.2 hafter
  rw [← r.dropLast_append_closing, ← List.append_assoc, List.flatten_append,
    List.flatten_singleton] at hended
  exact hended.of_append.resolve_left hne

theorem Covers.lookup (h : r.Covers lines first last) :
    ¬ (first < 1 ∨ last < first ∨ last > lines.length) ∧
      lines.getD (first.toNat - 1) [] = r.opening ∧ lines.getD (last.toNat - 1) [] = r.closing ∧
      lines.take (first.toNat - 1) = r.before ∧ lines.drop last.toNat = r.after := by
  have hfirst : first.toNat - 1 = r.before.length := by
    rw [h.first_eq]
    omega
  have hlast : last.toNat = (r.before ++ r.opening :: r.rest).length := by
    rw [h.last_eq]
    omega
  refine ⟨?_, ?_, ?_, ?_, ?_⟩
  · rw [h.first_eq, h.last_eq, h.lines_eq]
    simp only [List.length_append, List.length_cons]
    omega
  · rw [hfirst, h.lines_eq]
    simp
  · have hcount : last.toNat - 1 = (r.before ++ (r.opening :: r.rest).dropLast).length := by
      rw [hlast]
      simp
    rw [hcount, h.lines_eq_closing]
    simp
  · rw [hfirst, h.lines_eq, List.append_assoc, List.take_left]
  · rw [hlast, h.lines_eq, List.drop_left]

theorem Covers.spliceImport_eq (h : r.Covers text.rawLines first last) (content : Text) :
    (r.Fenced → spliceImport text first last content = .ok (r.replaced content)) ∧
      (¬ r.Fenced → spliceImport text first last content = .error (.moved first last)) := by
  obtain ⟨hinside, hopening, hclosing, htake, hdrop⟩ := h.lookup
  have hfenced : r.Fenced ↔
      (isImportFence r.opening.dropLineEnd && r.closing.startsWith Lexer.fenceMark) = true := by
    rw [Bool.and_eq_true]
    rfl
  unfold spliceImport
  dsimp only
  rw [if_neg hinside, hopening, hclosing, htake, hdrop, hfenced]
  refine ⟨fun hfences => ?_, fun hfences => if_neg hfences⟩
  have hne : r.closing ≠ [] := by
    intro hnil
    have hfence := (hfenced.2 hfences).2
    rw [hnil] at hfence
    exact absurd hfence (by decide)
  have htext := congrArg List.flatten h.lines_eq_closing
  rw [flatten_rawLines, List.flatten_append, List.flatten_cons, ← List.append_assoc] at htext
  have hrestore := restore_end hne (h.closing_ended hne)
    (r.before ++ (r.opening :: r.rest).dropLast).flatten
    (r.before.flatten ++ (Fence.plain r.opening.dropLineEnd ++ [lf] ++ withLf content))
  rw [← htext] at hrestore
  rw [if_pos hfences, replaced, ← hrestore]
  simp [importedLines]

end Range

variable {imp : Import} {before after : List Text} {r : Lexer.Enclosed} {text : Text}

theorem Stands.closing_ne_nil {lines : List Text} (h : Stands imp before r after lines) :
    r.closing ≠ [] := by
  intro hnil
  have hfence := h.isFence_closing
  rw [hnil] at hfence
  exact absurd hfence (by decide)

theorem Stands.getD_first {lines : List Text} (h : Stands imp before r after lines) :
    lines.getD (imp.first.toNat - 1) [] = r.opening := by
  have hfirst : imp.first.toNat - 1 = before.length := by
    rw [h.first_eq]
    omega
  rw [hfirst, h.lines_eq]
  simp [Lexer.Enclosed.lines]

theorem Stands.spliceImport_eq (h : Stands imp before r after text.rawLines) (content : Text) :
    spliceImport text imp.first imp.last content =
      .ok (before.flatten ++ (Fence.plain r.opening.dropLineEnd ++ [lf] ++ withLf content) ++
        r.closing ++ after.flatten) := by
  let range : Range := ⟨before, r.opening, r.inner ++ [r.closing], after⟩
  have hcovers : range.Covers text.rawLines imp.first imp.last :=
    ⟨h.lines_eq, h.first_eq, h.last_eq⟩
  have hclosing : range.closing = r.closing := by simp [range, Range.closing]
  rw [(hcovers.spliceImport_eq content).1 ⟨h.isImportFence_opening, hclosing ▸ h.isFence_closing⟩,
    Range.replaced, hclosing]

end Splice

section Replace

variable {chosen rest : List (Import × Text)} {n : Nat} {lines : List Text}

theorem replaceLines_append (chosen : List (Import × Text)) (n : Nat) (lines more : List Text) :
    replaceLines chosen n (lines ++ more) =
      replaceLines chosen n lines ++ replaceLines chosen (n + lines.length) more := by
  simp [replaceLines, List.zipIdx_append]

theorem replaceLines_cons (chosen : List (Import × Text)) (n : Nat) (raw : Text)
    (lines : List Text) :
    replaceLines chosen n (raw :: lines) =
      replaceLine chosen n raw ++ replaceLines chosen (n + 1) lines := by
  simp [replaceLines]

theorem replaceLines_above (h : ∀ c ∈ chosen, ↑(n + lines.length) ≤ c.1.first) :
    replaceLines chosen n lines = lines.flatten := by
  induction lines generalizing n with
  | nil => rfl
  | cons raw lines ih =>
    have hnone : chosen.find? (fun (imp, _) => imp.first ≤ n ∧ n ≤ imp.last) = none := by
      rw [List.find?_eq_none]
      intro c hc
      have := h c hc
      simp only [List.length_cons] at this
      simp
      omega
    rw [replaceLines_cons, replaceLine, hnone, List.flatten_cons, ih]
    intro c hc
    have := h c hc
    simp only [List.length_cons] at this
    omega

variable {imp : Import} {content : Text}

theorem replaceLines_below (h : imp.last < n) :
    replaceLines ((imp, content) :: rest) n lines = replaceLines rest n lines := by
  induction lines generalizing n with
  | nil => rfl
  | cons raw lines ih =>
    have hother : ¬ (imp.first ≤ n ∧ n ≤ imp.last) := by omega
    rw [replaceLines_cons, replaceLines_cons, ih (by omega), replaceLine, replaceLine,
      List.find?_cons_of_neg (by simpa using hother)]

theorem replaceLine_inside (hfirst : imp.first ≤ n) (hlast : n ≤ imp.last) (raw : Text) :
    replaceLine ((imp, content) :: rest) n raw =
      if n = imp.first then Fence.plain raw.dropLineEnd ++ [lf] ++ withLf content
      else if n = imp.last then raw
      else [] := by
  rw [replaceLine, List.find?_cons_of_pos (by simp [hfirst, hlast])]

theorem replaceLines_between (hfirst : imp.first < n) (hlast : ↑(n + lines.length) ≤ imp.last) :
    replaceLines ((imp, content) :: rest) n lines = [] := by
  induction lines generalizing n with
  | nil => rfl
  | cons raw lines ih =>
    simp only [List.length_cons] at hlast
    rw [replaceLines_cons, replaceLine_inside (by omega) (by omega), if_neg (by omega),
      if_neg (by omega), ih (by omega) (by omega)]
    rfl

theorem Stands.replaceLines_region {before after : List Text} {r : Lexer.Enclosed}
    (h : Stands imp before r after lines) :
    replaceLines ((imp, content) :: rest) (1 + before.length) r.lines =
      Fence.plain r.opening.dropLineEnd ++ [lf] ++ withLf content ++ r.closing := by
  have hfirst := h.first_eq
  have hlast := h.last_eq
  simp only [Lexer.Enclosed.lines, List.length_append, List.length_cons, List.length_nil] at hlast
  rw [Lexer.Enclosed.lines, replaceLines_cons, replaceLines_append, replaceLines_cons,
    replaceLine_inside (by omega) (by omega), if_pos (by omega),
    replaceLines_between (by omega) (by omega), replaceLine_inside (by omega) (by omega),
    if_neg (by omega), if_pos (by omega)]
  simp [replaceLines]

end Replace

section Step

variable {imp : Import} {content text : Text} {rest : List (Import × Text)}
  {before after : List Text} {r : Lexer.Enclosed}

theorem Stands.replaceAll_below (h : Stands imp before r after text.rawLines)
    (hbelow : ∀ c ∈ rest, imp.last < c.1.first) :
    replaceAll rest text = (before ++ r.lines).flatten ++
      replaceLines rest (1 + (before ++ r.lines).length) after := by
  rw [replaceAll, h.lines_eq, replaceLines_append, replaceLines_above]
  intro c hc
  have hlast := h.last_eq
  have hfirst := hbelow c hc
  omega

theorem Stands.replaceAll_cons (h : Stands imp before r after text.rawLines)
    (hbelow : ∀ c ∈ rest, imp.last < c.1.first) :
    replaceAll ((imp, content) :: rest) text =
      before.flatten ++ (Fence.plain r.opening.dropLineEnd ++ [lf] ++ withLf content) ++ r.closing ++
        replaceLines rest (1 + (before ++ r.lines).length) after := by
  have hfirst := h.first_eq
  have hlast := h.last_eq
  have habove : replaceLines ((imp, content) :: rest) 1 before = before.flatten := by
    apply replaceLines_above
    intro c hc
    rcases List.mem_cons.1 hc with rfl | hc
    · dsimp only
      omega
    · have := hbelow c hc
      simp only [List.length_append] at hlast
      omega
  rw [replaceAll, h.lines_eq, replaceLines_append, replaceLines_append, habove,
    h.replaceLines_region, replaceLines_below (by omega)]
  simp

theorem Stands.of_replaceAll (h : Stands imp before r after text.rawLines)
    (hbelow : ∀ c ∈ rest, imp.last < c.1.first) :
    Stands imp before r (replaceLines rest (1 + (before ++ r.lines).length) after).rawLines
      (replaceAll rest text).rawLines := by
  obtain ⟨hlines, -, hended⟩ := rawLines_parted h.lines_eq
  refine ⟨?_, h.first_eq, h.last_eq, h.isImportFence_opening, h.isFence_closing⟩
  rw [h.replaceAll_below hbelow]
  by_cases hafter : after = []
  · simpa [hafter, replaceLines, rawLines] using hlines
  · rw [rawLines_append (hended hafter), hlines]

end Step

theorem spliceImports_eq_replaceAll {text : Text} {chosen : List (Import × Text)}
    (hstands : ∀ c ∈ chosen, ∃ before r after, Stands c.1 before r after text.rawLines)
    (hordered : chosen.Pairwise fun c c' => c.1.last < c'.1.first) :
    spliceImports text chosen = .ok (replaceAll chosen text) ∧
      (replaceAll chosen text).endsWith [lf] = text.endsWith [lf] := by
  induction chosen with
  | nil =>
    have hnone : replaceAll [] text = text := by
      rw [replaceAll, replaceLines_above (by simp), flatten_rawLines]
    rw [hnone]
    exact ⟨rfl, rfl⟩
  | cons c rest ih =>
    obtain ⟨imp, content⟩ := c
    obtain ⟨hbelow, hordered⟩ := List.pairwise_cons.1 hordered
    obtain ⟨before, r, after, h⟩ := hstands _ (List.mem_cons_self ..)
    obtain ⟨hsplice, hends⟩ := ih (fun c hc => hstands c (List.mem_cons_of_mem _ hc)) hordered
    constructor
    · -- All that was replaced before lies below this import, which still stands where it stood.
      rw [spliceImports, hsplice]
      dsimp only
      rw [(h.of_replaceAll hbelow).spliceImport_eq, flatten_rawLines, h.replaceAll_cons hbelow]
    · -- Both texts end with the closing fence and what comes after it.
      have hold : replaceAll rest text = (before ++ r.opening :: r.inner).flatten ++
          (r.closing ++ replaceLines rest (1 + (before ++ r.lines).length) after) := by
        rw [h.replaceAll_below hbelow]
        simp [Lexer.Enclosed.lines]
      have hne := List.append_ne_nil_of_left_ne_nil h.closing_ne_nil
        (replaceLines rest (1 + (before ++ r.lines).length) after)
      rw [← hends, h.replaceAll_cons hbelow, hold, List.append_assoc _ r.closing,
        endsWith_append hne, endsWith_append hne]

variable {source relDir text : Text}

theorem exists_stands {imp : Import} (h : imp ∈ (lex source relDir text).store.imports) :
    ∃ before r after, Stands imp before r after text.rawLines := by
  obtain ⟨before, p, after, hlines, hb, -⟩ :=
    Lexer.exists_part_of_mem_blocks (Store.mem_imports.1 h)
  obtain ⟨hfirst, hlast⟩ := Lexer.lines_of_mem_blocks hb
  rcases Lexer.mem_blocks_found hb with ⟨_, _, _, _, _, hpull⟩ | ⟨r, rfl, -, -, hfenced⟩
  · cases hpull
  · obtain ⟨hdelimiter, htype⟩ := hfenced rfl
    obtain ⟨hopening, hclosing, -⟩ := r.isFence_of_delimiter hdelimiter
    refine ⟨before, r, after, hlines, hfirst, hlast, ?_, hclosing⟩
    rw [isImportFence, Lexer.isFence_dropLineEnd, hopening, ← htype]
    rfl

theorem pairwise_imports (source relDir text : Text) :
    (lex source relDir text).store.imports.Pairwise fun a b => a.last < b.first := by
  refine (Lexer.pairwise_blocks_lex source relDir text).filterMap _ ?_
  intro a b hab x hx y hy
  obtain rfl := Block.eq_importing hx
  obtain rfl := Block.eq_importing hy
  exact hab

end Patch

namespace Writer

open Patch

/-- Imports of a document that still has the text in which the lexer found them are all replaced at
once, and all that can fail is the write. -/
theorem importInto_replaces {files : Files.Tree} {document text : Text}
    (hread : files.read document = .ok text) (source relDir : Text) {chosen : List (Import × Text)}
    (hchosen : (chosen.map Prod.fst).Sublist (lex source relDir text).store.imports) :
    (∀ f, (importInto files document chosen).outcome ≠ .error (.splice document f)) ∧
      importInto files document chosen = put files document (replaceAll chosen text) ()
        ⟨.info, "Imported blocks", [("path", .text document), ("count", .number chosen.length)]⟩ ∧
      ((importInto files document chosen).outcome = .ok () →
        (importInto files document chosen).files.read document = .ok (replaceAll chosen text)) ∧
      (replaceAll chosen text).endsWith [lf] = text.endsWith [lf] := by
  have hstands : ∀ c ∈ chosen, ∃ before r after, Stands c.1 before r after text.rawLines := by
    intro c hc
    exact exists_stands (hchosen.subset (List.mem_map_of_mem hc))
  have hordered : chosen.Pairwise fun c c' => c.1.last < c'.1.first :=
    List.pairwise_map.1 ((pairwise_imports source relDir text).sublist hchosen)
  obtain ⟨hsplice, hends⟩ := spliceImports_eq_replaceAll hstands hordered
  have hput : importInto files document chosen = put files document (replaceAll chosen text) ()
      ⟨.info, "Imported blocks", [("path", .text document), ("count", .number chosen.length)]⟩ := by
    rw [importInto, hread]
    dsimp only
    rw [hsplice]
  refine ⟨?_, hput, ?_, hends⟩
  all_goals
    rw [hput, put]
    cases hwrite : files.write document (replaceAll chosen text) with
    | error e => simp [Step.fail]
    | ok files' => simp [Files.Tree.read_write hread hwrite]

def sheet : Text :=
  "```js lit-type:import lit-file:a\n```\ntext\n```lit-type:import lit-file:b\nold\n```\r\n" ++
    "```go lit-type:import\npath=c\n```"

def desk : Files.Tree := ⟨.memory, [("d.md", .file sheet)], {}⟩

def picks : List (Import × Text) :=
  [(⟨⟨"d.md", [], 1, 2⟩, ⟨"a", 0, 0, []⟩⟩, "x"),
    (⟨⟨"d.md", "path=c\n", 7, 9⟩, ⟨"c", 0, 0, []⟩⟩, "y\n")]

theorem importInto_replaces_sheet :
    desk.read "d.md" = .ok sheet ∧
      (picks.map Prod.fst).Sublist (lex "d.md" [] sheet).store.imports ∧
      (importInto desk "d.md" picks).outcome = .ok () ∧
      (importInto desk "d.md" picks).files.read "d.md" = .ok (replaceAll picks sheet) ∧
      replaceAll picks sheet =
        "```js\nx\n```\ntext\n```lit-type:import lit-file:b\nold\n```\r\n```go\ny\n```" := by
  have hsheet : desk.read "d.md" = .ok sheet := by decide +kernel
  have hchosen : (picks.map Prod.fst).Sublist (lex "d.md" [] sheet).store.imports := by
    decide +kernel
  have hok : (importInto desk "d.md" picks).outcome = .ok () := by decide +kernel
  obtain ⟨-, -, hread, -⟩ := importInto_replaces hsheet "d.md" [] hchosen
  exact ⟨hsheet, hchosen, hok, hread hok, by decide +kernel⟩

end Writer

end Tangle
