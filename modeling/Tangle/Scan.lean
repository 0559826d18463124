import Tangle.Files.Tree
import Tangle.Text.Blank
import Tangle.Text.CaseMap

namespace Tangle

structure Document where
  path : Text
  /-- The directory below the root: empty, or ended by a slash. -/
  relDir : Text
  deriving DecidableEq, Repr

namespace Scan

open Text

inductive Failure
  | inputPath (e : Files.Error)
  | notDirectory (root : Text)
  | walk (e : Files.Error)
  deriving DecidableEq, Repr

def Failure.message : Failure → Text
  | inputPath e => "input path: " ++ e.message
  | notDirectory root => "input path " ++ root ++ " is not a directory"
  | walk e => e.message

def normalize? (extension : Text) : Option Text :=
  match extension.trim.toLower with
  | [] => none
  | 46 :: rest => some (46 :: rest)
  | e => some (46 :: e)

def normalizeAll (extensions : List Text) : List Text :=
  (if extensions.isEmpty then [ofString ".md"] else extensions).filterMap normalize?

def hasExtension (extensions : List Text) (path : Text) : Bool :=
  extensions.any (endsWith path.toLower ·)

def relDir (root path : Text) : Text :=
  match Path.relative? root (Path.directory path) with
  | none => []
  | some rel => if rel = "." then [] else rel ++ [slash]

def below? : (lead parts : List Text) → Option (List Text)
  | [], parts => some parts
  | a :: lead, b :: parts => if a = b then below? lead parts else none
  | _ :: _, [] => none

def firstNames (entries : List (List Text)) : List Text :=
  (entries.filterMap List.head?).eraseDups.mergeSort fun a b => decide (a ≤ b)

def inside (name : Text) (entries : List (List Text)) : List (List Text) :=
  entries.filterMap (below? [name])

theorem inside_cons (name : Text) (entry : List Text) (entries : List (List Text)) :
    inside name (entry :: entries) = (below? [name] entry).toList ++ inside name entries := by
  rw [inside, List.filterMap_cons]
  cases below? [name] entry <;> rfl

theorem length_inside_le (name : Text) (entries : List (List Text)) :
    (inside name entries).flatten.length ≤ entries.flatten.length := by
  induction entries with
  | nil => exact Nat.le_refl 0
  | cons entry entries ih =>
    have hentry : (below? [name] entry).toList.flatten.length ≤ entry.length := by
      cases entry with
      | nil => exact Nat.le_refl 0
      | cons a rest =>
        simp only [below?]
        split <;> simp
    simp only [inside_cons, List.flatten_append, List.flatten_cons, List.length_append]
    omega

theorem length_inside_lt {name : Text} {entries : List (List Text)}
    (h : name ∈ firstNames entries) :
    (inside name entries).flatten.length < entries.flatten.length := by
  rw [firstNames, List.mem_mergeSort, List.mem_eraseDups, List.mem_filterMap] at h
  obtain ⟨entry, hentry, hhead⟩ := h
  obtain ⟨rest, rfl⟩ := List.head?_eq_some_iff.1 hhead
  obtain ⟨before, after, rfl⟩ := List.append_of_mem hentry
  have hbefore := length_inside_le name before
  have hafter := length_inside_le name after
  have hinside : inside name (before ++ (name :: rest) :: after) =
      inside name before ++ rest :: inside name after := by
    rw [inside, List.filterMap_append, ← inside, ← inside, inside_cons, below?, if_pos rfl]
    rfl
  simp only [hinside, List.flatten_append, List.flatten_cons, List.length_append, List.length_cons]
  omega

/-- Entries in the order of a walk: a directory comes before what it holds, and is gone through by
name. -/
def depthFirst (entries : List (List Text)) : List (List Text) :=
  entries.filter (· = []) ++ (firstNames entries).attach.flatMap fun ⟨name, _⟩ =>
    (depthFirst (inside name entries)).map (name :: ·)
termination_by entries.flatten.length
decreasing_by exact length_inside_lt ‹_›

def entriesBelow (files : Files.Tree) (root : Text) : List (List Text) :=
  let start := Path.components (Files.key root)
  depthFirst (files.entries.filterMap fun (p, _) =>
    if Path.isAbsolute p then (below? start (Path.components p)).filter (· ≠ []) else none)

def visit (files : Files.Tree) (root : Text) : List (List Text) → Except Files.Error (List Text)
  | [] => .ok []
  | names :: rest =>
    let path := Path.append root (join [slash] names)
    match files.stat path with
    | .error e => .error e
    | .ok entry =>
      if entry.isDirectory then
        match files.listing path with
        | .error e => .error e
        | .ok () => visit files root rest
      else (visit files root rest).map (path :: ·)

def walk (files : Files.Tree) (root : Text) : Except Files.Error (List Text) :=
  match files.listing root with
  | .error e => .error e
  | .ok () => visit files root (entriesBelow files root)

end Scan

def scan (files : Files.Tree) (extensions : List Text) (root : Text) :
    Except Scan.Failure (List Document) :=
  match files.stat root with
  | .error e => .error (.inputPath e)
  | .ok entry =>
    if entry.isDirectory then
      match Scan.walk files root with
      | .error e => .error (.walk e)
      | .ok paths =>
        .ok ((paths.filter (Scan.hasExtension (Scan.normalizeAll extensions))).map fun p =>
          ⟨p, Scan.relDir root p⟩)
    else .error (.notDirectory root)

end Tangle
