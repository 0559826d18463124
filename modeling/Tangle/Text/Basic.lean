namespace Tangle

abbrev Text := List UInt8

namespace Text

def ofString (s : String) : Text := s.toList.flatMap String.utf8EncodeChar

instance : Coe String Text := ⟨ofString⟩

abbrev tab : UInt8 := 9
abbrev lf : UInt8 := 10
abbrev cr : UInt8 := 13
abbrev space : UInt8 := 32
abbrev quote : UInt8 := 34
abbrev comma : UInt8 := 44
abbrev slash : UInt8 := 47
abbrev colon : UInt8 := 58
abbrev equals : UInt8 := 61
abbrev backslash : UInt8 := 92
abbrev backtick : UInt8 := 96

def startsWith (t lead : Text) : Bool := lead.isPrefixOf t

def endsWith (t tail : Text) : Bool := tail.isSuffixOf t

def after? : (lead t : Text) → Option Text
  | [], t => some t
  | _ :: _, [] => none
  | a :: lead, b :: t => if a = b then after? lead t else none

@[simp] theorem after?_nil (t : Text) : after? [] t = some t := by
  cases t <;> rfl

theorem after?_eq_some {lead t rest : Text} (h : after? lead t = some rest) : t = lead ++ rest := by
  induction lead generalizing t with
  | nil => simpa using h
  | cons a lead ih =>
    cases t with
    | nil => simp [after?] at h
    | cons b t =>
      simp only [after?] at h
      split at h
      next hab => simp [hab, ih h]
      next => simp at h

@[simp] theorem after?_append (lead rest : Text) : after? lead (lead ++ rest) = some rest := by
  induction lead with
  | nil => simp
  | cons a lead ih => simp [after?, ih]

def cut (sep : Text) : Text → Option (Text × Text)
  | [] => if sep = [] then some ([], []) else none
  | b :: t =>
    match after? sep (b :: t) with
    | some rest => some ([], rest)
    | none => (cut sep t).map fun (before, rest) => (b :: before, rest)

theorem cut_eq_some {sep t before rest : Text} (h : cut sep t = some (before, rest)) :
    t = before ++ sep ++ rest := by
  induction t generalizing before with
  | nil =>
    simp only [cut] at h
    split at h <;> simp_all
  | cons b t ih =>
    simp only [cut] at h
    split at h
    next r hr =>
      simp only [Option.some.injEq, Prod.mk.injEq] at h
      simp [← h.1, ← h.2, after?_eq_some hr]
    next =>
      obtain ⟨⟨x, y⟩, hxy, heq⟩ := Option.map_eq_some_iff.1 h
      simp only [Prod.mk.injEq] at heq
      obtain ⟨rfl, rfl⟩ := heq
      simp [ih hxy]

def cutByte (sep : UInt8) : Text → Option (Text × Text)
  | [] => none
  | b :: t =>
    if b = sep then some ([], t)
    else (cutByte sep t).map fun (before, rest) => (b :: before, rest)

def cutLast (sep : UInt8) : Text → Option (Text × Text)
  | [] => none
  | b :: t =>
    match cutLast sep t with
    | some (before, rest) => some (b :: before, rest)
    | none => if b = sep then some ([], t) else none

def contains (t part : Text) : Bool := (cut part t).isSome

def split (sep : UInt8) : Text → List Text
  | [] => [[]]
  | b :: t =>
    if b = sep then [] :: split sep t
    else
      match split sep t with
      | part :: parts => (b :: part) :: parts
      | [] => [[b]]

def join (sep : Text) : List Text → Text
  | [] => []
  | [part] => part
  | part :: parts => part ++ sep ++ join sep parts

def trimEndWhile (p : UInt8 → Bool) (t : Text) : Text := (t.reverse.dropWhile p).reverse

def dropFinalLf (t : Text) : Text := if t.endsWith [lf] then t.dropLast else t

end Text

end Tangle
