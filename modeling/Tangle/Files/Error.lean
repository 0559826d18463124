import Tangle.Text.Basic

namespace Tangle.Files

inductive Call
  | opening
  | reading
  | status
  | makeDirectory
  deriving DecidableEq, Repr

def Call.word : Call → Text
  | opening => "open"
  | reading => "read"
  | status => "stat"
  | makeDirectory => "mkdir"

inductive Reason
  | absent
  | noEntry
  | denied
  | isDirectory
  | notDirectory
  deriving DecidableEq, Repr

def Reason.words : Reason → Text
  | absent => "file does not exist"
  | noEntry => "no such file or directory"
  | denied => "permission denied"
  | isDirectory => "is a directory"
  | notDirectory => "not a directory"

def Reason.isMissing : Reason → Bool
  | absent => true
  | noEntry => true
  | _ => false

structure Error where
  call : Call
  path : Text
  reason : Reason
  deriving DecidableEq, Repr

def Error.message (e : Error) : Text := e.call.word ++ " " ++ e.path ++ ": " ++ e.reason.words

end Tangle.Files
