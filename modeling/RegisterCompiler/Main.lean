/-
The command on a real machine.
-/

import RegisterCompiler.Command
import RegisterCompiler.Text.Hex

set_option autoImplicit false

namespace RegisterCompiler

open Text (Bytes)

namespace Host

def problemOf : IO.Error → FileProblem
  | .noFileOrDirectory .. => .missing
  | .inappropriateType .. => .isDirectory
  | .alreadyExists .. => .occupied
  | _ => .notDirectory

def attempt {α : Type} (action : FileAction) (path : String) (effect : IO α) :
    IO (Except FileFault α) := do
  try
    return .ok (← effect)
  catch problem =>
    return .error ⟨action, path, problemOf problem⟩

/-- Everything a stream still holds. -/
partial def readRest (stream : IO.FS.Stream) (before : ByteArray) : IO ByteArray := do
  let chunk ← stream.read 65536
  if chunk.isEmpty then return before else readRest stream (before ++ chunk)

def randomId : IO String := do
  let digits (count : Nat) : IO String := do
    let bytes ← (List.replicate count ()).mapM fun _ => IO.rand 0 255
    return Text.hex (bytes.map Nat.toUInt8)
  let parts ← [4, 2, 2, 2, 6].mapM digits
  return String.intercalate "-" parts

def machine : Host IO where
  workingDirectory := return (← IO.currentDir).toString
  isPresent path := do
    try
      discard (IO.FS.readBinFile path)
      return true
    catch problem =>
      return problemOf problem != .missing
  fetchFile path := attempt .opening path do return (← IO.FS.readBinFile path).toList
  makeDirectories path := attempt .makingDirectory path (IO.FS.createDirAll path)
  storeFile path content :=
    attempt .opening path (IO.FS.writeBinFile path ⟨content.toArray⟩)
  input := do return (← readRest (← IO.getStdin) .empty).toList
  now := return (← IO.monoMsNow) / 1000
  newId := randomId

end Host

end RegisterCompiler

def main (arguments : List String) : IO UInt32 := do
  let report ← RegisterCompiler.Command.run RegisterCompiler.Host.machine arguments
  IO.print report.transcript.output
  IO.eprint report.transcript.notes
  return report.exit.toUInt32
