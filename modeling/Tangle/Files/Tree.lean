import Tangle.Files.Error
import Tangle.Path

/-!
A tree of files as a table of clean paths, with the paths on which requests are refused. It follows
the rules of its medium: in memory directories appear as they are needed and hold text like files; a
disk keeps the two apart.
-/

namespace Tangle.Files

open Text

structure Entry where
  content : Text
  isDirectory : Bool
  deriving DecidableEq, Repr

def Entry.file (content : Text) : Entry := ⟨content, false⟩

def Entry.directory : Entry := ⟨[], true⟩

/-- Paths, as they are asked for, on which a kind of request is refused; `*` stands for all. -/
structure Denials where
  read : List Text := []
  write : List Text := []
  mkdir : List Text := []
  stat : List Text := []
  deriving DecidableEq, Repr

def Denials.covers (paths : List Text) (p : Text) : Bool := paths.contains p || paths.contains ↑"*"

inductive Medium
  | memory
  | disk
  deriving DecidableEq, Repr

structure Tree where
  medium : Medium
  entries : List (Text × Entry)
  denied : Denials := {}
  deriving DecidableEq, Repr

/-- The path under which a tree keeps an entry. What lies at or above the start of a relative path is
the root. -/
def key (p : Text) : Text :=
  let c := Path.clean p
  if c = "." ∨ c = ".." then [slash] else c

def ancestors (p : Text) : List Text :=
  let cs := Path.components p
  (List.range cs.length).reverse.map fun n => key (Path.render (Path.isAbsolute p) (cs.take n))

namespace Tree

def empty (medium : Medium) : Tree := ⟨medium, [([slash], .directory)], {}⟩

def get? (t : Tree) (p : Text) : Option Entry := t.entries.lookup (key p)

def setEntry (p : Text) (e : Entry) : List (Text × Entry) → List (Text × Entry)
  | [] => [(p, e)]
  | (q, f) :: rest => if q = p then (p, e) :: rest else (q, f) :: setEntry p e rest

def set (t : Tree) (p : Text) (e : Entry) : Tree := { t with entries := setEntry (key p) e t.entries }

theorem lookup_setEntry (p q : Text) (e : Entry) (es : List (Text × Entry)) :
    (setEntry p e es).lookup q = if q = p then some e else es.lookup q := by
  induction es with
  | nil => grind [setEntry]
  | cons x rest ih => grind [setEntry]

theorem get?_set (t : Tree) (p q : Text) (e : Entry) :
    (t.set p e).get? q = if key q = key p then some e else t.get? q := by
  simp [get?, set, lookup_setEntry]

@[simp] theorem get?_set_self (t : Tree) (p : Text) (e : Entry) : (t.set p e).get? p = some e := by
  simp [get?_set]

/-- Makes sure that the given directories, nearest first, are there and are directories. The first
one that is found has its own ancestors already. -/
def adopt (t : Tree) : List Text → Tree
  | [] => t
  | dir :: rest =>
    match t.get? dir with
    | some e => if e.isDirectory then t else t.set dir { e with isDirectory := true }
    | none => (t.set dir .directory).adopt rest

/-- Puts an entry in its place, with the directories above it. Denials do not count here. -/
def place (t : Tree) (p : Text) (e : Entry) : Tree :=
  match t.get? p with
  | some old => t.set p { old with content := e.content }
  | none => (t.set p e).adopt (ancestors p)

def placeDirectory (t : Tree) (p : Text) : Tree :=
  match t.get? p with
  | some _ => t
  | none => (t.set p .directory).adopt (ancestors p)

def erase (t : Tree) (p : Text) : Tree :=
  { t with entries := t.entries.filter (·.1 ≠ key p) }

def obstacle? (t : Tree) (p : Text) : Option Text :=
  (ancestors p).find? fun dir => (t.get? dir).any (!·.isDirectory)

def onDisk (t : Tree) (call : Call) (p : Text) : Except Error Entry :=
  match t.obstacle? p with
  | some _ => .error ⟨call, p, .notDirectory⟩
  | none =>
    match t.get? p with
    | some e => .ok e
    | none => .error ⟨call, p, .noEntry⟩

def inMemory (t : Tree) (p : Text) : Except Error Entry :=
  match t.get? p with
  | some e => .ok e
  | none => .error ⟨.opening, key p, .absent⟩

def stat (t : Tree) (p : Text) : Except Error Entry :=
  if Denials.covers t.denied.stat p then .error ⟨.status, p, .denied⟩
  else
    match t.medium with
    | .memory => t.inMemory p
    | .disk => t.onDisk .status p

def exists? (t : Tree) (p : Text) : Bool := (t.stat p).isOk

def read (t : Tree) (p : Text) : Except Error Text :=
  if Denials.covers t.denied.read p then .error ⟨.opening, p, .denied⟩
  else
    match t.medium with
    | .memory => (t.inMemory p).map (·.content)
    | .disk =>
      match t.onDisk .opening p with
      | .error e => .error e
      | .ok e => if e.isDirectory then .error ⟨.reading, p, .isDirectory⟩ else .ok e.content

def listing (t : Tree) (p : Text) : Except Error Unit :=
  if Denials.covers t.denied.read p then .error ⟨.opening, p, .denied⟩ else .ok ()

def makeDirectory (t : Tree) (p : Text) : Except Error Tree :=
  if Denials.covers t.denied.mkdir p then .error ⟨.makeDirectory, p, .denied⟩
  else
    match t.medium with
    | .memory => .ok (t.placeDirectory p)
    | .disk =>
      match t.obstacle? p, t.get? p with
      | some dir, _ => .error ⟨.makeDirectory, dir, .notDirectory⟩
      | none, some e =>
        if e.isDirectory then .ok t else .error ⟨.makeDirectory, p, .notDirectory⟩
      | none, none => .ok (t.placeDirectory p)

def write (t : Tree) (p content : Text) : Except Error Tree :=
  if Denials.covers t.denied.write p then .error ⟨.opening, p, .denied⟩
  else
    match t.medium with
    | .memory => .ok (t.place p (.file content))
    | .disk =>
      match t.onDisk .opening p with
      | .ok e =>
        if e.isDirectory then .error ⟨.opening, p, .isDirectory⟩ else .ok (t.place p (.file content))
      | .error e =>
        if e.reason = .noEntry ∧ ((ancestors p).head?.bind t.get?).isSome then
          .ok (t.place p (.file content))
        else .error e

def files (t : Tree) : List (Text × Text) :=
  t.entries.filterMap fun (p, e) => if e.isDirectory then none else some (p, e.content)

def changesSince (t old : Tree) : List (Text × Text) :=
  t.files.filter fun (p, content) => old.files.lookup p ≠ some content

end Tree

end Tangle.Files
