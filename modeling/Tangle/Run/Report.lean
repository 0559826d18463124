import Tangle.Config.Resolve
import Tangle.Document.Lexer
import Tangle.Expansion.Basic
import Tangle.Write.Writer

namespace Tangle.Run

open Text

inductive Failure
  | document (e : Files.Error)
  | setting (f : Config.Fault)
  | output (target : Text) (f : Expansion.Failure)
  | injection (name : Text) (f : Expansion.Failure)
  | importing (path : Text) (f : Extract.Failure)
  | writing (f : Writer.Failure)
  | sourceMissing (document : Text)
  | blockMissing (name document : Text)
  deriving DecidableEq, Repr

def Failure.message : Failure → Text
  | document e => e.message
  | setting f => f.message
  | output target f => "output " ++ target ++ ": " ++ f.message
  | injection name f => "injection " ++ name ++ ": " ++ f.message
  | importing path f => "import " ++ path ++ ": " ++ f.message
  | writing f => f.message
  | sourceMissing d => "target file does not exist: " ++ d
  | blockMissing name d => "pulled block not found: " ++ name ++ " in " ++ d

abbrev Outcome (α : Type) : Type := Except Failure α

def successes {α : Type} (os : List (Outcome α)) : List α := os.filterMap Except.toOption

def failure? {α : Type} : Outcome α → Option Failure
  | .ok _ => none
  | .error f => some f

def failures {α : Type} (os : List (Outcome α)) : List Failure := os.filterMap failure?

theorem length_successes_add_length_failures {α : Type} (os : List (Outcome α)) :
    (successes os).length + (failures os).length = os.length := by
  induction os with
  | nil => rfl
  | cons o os ih =>
    cases o <;>
      simp only [successes, failures, failure?, Except.toOption, List.filterMap_cons,
        List.length_cons] at ih ⊢ <;> omega

structure Account where
  documents : List (Outcome Lexed)
  settings : List Config.Fault
  filtered : Nat
  outputs : List (Outcome Text)
  injections : List (Outcome Text)
  imports : List (Outcome (Import × Text))
  importing : List (Outcome Text)
  /-- The documents of the pulls; none where the block had been pulled before. -/
  pulls : List (Outcome (Option Text))

structure Report where
  documents : Int := 0
  written : List Text := []
  injected : List Text := []
  imported : List Text := []
  pulled : List Text := []
  filtered : Int := 0
  diagnostics : List Diagnostic := []
  failures : List Text := []
  deriving DecidableEq, Repr

namespace Account

def diagnostics (a : Account) : List Diagnostic := (successes a.documents).flatMap (·.diagnostics)

def failures (a : Account) : List Failure :=
  Run.failures a.documents ++ a.settings.map .setting ++ Run.failures a.outputs ++
    Run.failures a.injections ++ Run.failures a.imports ++ Run.failures a.importing ++
    Run.failures a.pulls

def report (a : Account) : Report where
  documents := a.documents.length
  written := successes a.outputs
  injected := successes a.injections
  imported := successes a.importing
  pulled := (successes a.pulls).filterMap id
  filtered := a.filtered
  diagnostics := a.diagnostics
  failures := a.failures.map (·.message)

end Account

end Tangle.Run
