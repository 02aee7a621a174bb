/-
Build caches in files.

The file of a cache holds the kept images one after the other, each with its key
and the time it was kept at.  An empty file is a cache without images, and a file
that starts otherwise is refused, as a database does with its files.
-/

import RegisterCompiler.BuildCache
import RegisterCompiler.Host

set_option autoImplicit false

namespace RegisterCompiler

open Text (Bytes)

inductive CacheFileFault where
  | noDirectory (fault : FileFault)
  | notFile
  | notCache
  | unwritable (fault : FileFault)
deriving Repr, DecidableEq

namespace CacheFileFault

def message : CacheFileFault → String
  | noDirectory fault => s!"creating cache directory: {fault.message}"
  | notFile => "setting busy timeout: unable to open database file: out of memory (14)"
  | notCache => "creating table: file is not a database (26)"
  | unwritable fault => s!"opening database: {fault.message}"

end CacheFileFault

namespace BuildCache

def fileMark : Bytes := Text.encode "kept builds 1\n"

def encodeEntry (entry : String × KeptImage) : Bytes :=
  Cbor.encodeArray [Cbor.encodeText (Text.encode entry.1), Cbor.encodeInt entry.2.created,
    Cbor.encodeText entry.2.data]

def encode (cache : BuildCache) : Bytes :=
  fileMark ++ cache.images.entries.flatMap encodeEntry

def entryOfItem? : Cbor.Item → Option (String × KeptImage)
  | .array [.text key, created, .text data] => do
      let created ← (← Cbor.toSigned created)
      return (← Text.decode? key.flatten, ⟨data.flatten, created⟩)
  | _ => none

/-- Reads kept images.  Each takes a byte at least, which bounds their number. -/
def readEntries : Nat → Bytes → Option (List (String × KeptImage))
  | _, [] => some []
  | 0, _ => none
  | fuel + 1, bytes => do
      let (item, rest) ← Cbor.readItem (2 * bytes.length + 2) 0 bytes
      let entry ← entryOfItem? item
      return entry :: (← readEntries fuel rest)

def decode? (path : String) (content : Bytes) : Option BuildCache :=
  if content.isEmpty then some (empty path)
  else if fileMark.isPrefixOf content then
    (readEntries content.length (content.drop fileMark.length)).map fun entries =>
      ⟨path, .ofEntries entries, true⟩
  else none

section Opening

variable {m : Type → Type} [Monad m]

def save (host : Host m) (cache : BuildCache) : m (Except CacheFileFault Unit) := do
  return (← host.storeFile cache.path cache.encode).mapError .unwritable

def openFile (host : Host m) (path : String) : m (Except CacheFileFault BuildCache) := do
  match ← host.makeDirectories (Path.directory path) with
  | .error fault => return .error (.noDirectory fault)
  | .ok () =>
      match ← host.fetchFile path with
      | .ok content =>
          match decode? path content with
          | some cache => return .ok cache
          | none => return .error .notCache
      | .error fault =>
          if fault.problem = .missing then
            return (← (empty path).save host).map fun () => empty path
          else return .error .notFile

end Opening

end BuildCache

end RegisterCompiler
