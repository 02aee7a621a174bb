/-
What a command needs from the machine it runs on.

A host reads and writes files, knows the time and makes up ids.  The commands are
written for any host, so that they run on a real machine as well as on one that
is only held in memory.
-/

import RegisterCompiler.Path

set_option autoImplicit false

namespace RegisterCompiler

open Text (Bytes)

inductive FileProblem where
  | missing
  | notDirectory
  | isDirectory
  | occupied
deriving Repr, DecidableEq, Inhabited

namespace FileProblem

def message : FileProblem → String
  | missing => "no such file or directory"
  | notDirectory => "not a directory"
  | isDirectory => "is a directory"
  | occupied => "file exists"

end FileProblem

inductive FileAction where
  | opening
  | reading
  | makingDirectory
deriving Repr, DecidableEq, Inhabited

namespace FileAction

def name : FileAction → String
  | opening => "open"
  | reading => "read"
  | makingDirectory => "mkdir"

end FileAction

structure FileFault where
  action : FileAction
  path : String
  problem : FileProblem
deriving Repr, DecidableEq, Inhabited

namespace FileFault

def message (fault : FileFault) : String :=
  s!"{fault.action.name} {fault.path}: {fault.problem.message}"

end FileFault

structure Host (m : Type → Type) where
  workingDirectory : m String
  isPresent : String → m Bool
  fetchFile : String → m (Except FileFault Bytes)
  makeDirectories : String → m (Except FileFault Unit)
  storeFile : String → Bytes → m (Except FileFault Unit)
  input : m Bytes
  now : m Int
  newId : m String

end RegisterCompiler
