/-
A host held in memory.

The disk knows its files and directories by their path from the root.  Looking a
path up goes from part to part, and every part but the last has to be a
directory.
-/

import RegisterCompiler.Host
import RegisterCompiler.OrderedMap
import RegisterCompiler.Text.Hex

set_option autoImplicit false

namespace RegisterCompiler

open Text (Bytes)

inductive DiskNode where
  | directory
  | file (content : Bytes)
deriving Repr, DecidableEq, Inhabited

/-- Files and directories by path, the working directory, the input to read, and
the number of ids made up so far. -/
structure Disk where
  nodes : OrderedMap String DiskNode
  workingDirectory : String
  input : Bytes
  ids : Nat
deriving Repr, DecidableEq, Inhabited

namespace Disk

/-- The text of a path from the root whose parts are in reverse order. -/
def placeText (place : List String) : String :=
  Path.ofParts true place.reverse

def node? (disk : Disk) (place : List String) : Option DiskNode :=
  if place.isEmpty then some .directory else disk.nodes.get? (placeText place)

/-- Follows the parts of a path from a directory.  The last part need not
exist. -/
def follow (disk : Disk) : List String → List String → Except FileProblem (List String)
  | place, [] => .ok place
  | place, part :: rest =>
      if part = "" || part = "." then follow disk place rest
      else if part = ".." then follow disk place.tail rest
      else
        match disk.node? (part :: place) with
        | some .directory => follow disk (part :: place) rest
        | some (.file _) => if rest.isEmpty then .ok (part :: place) else .error .notDirectory
        | none => if rest.all (· == "") then .ok (part :: place) else .error .missing

def locate (disk : Disk) (path : String) : Except FileProblem (List String) :=
  let start :=
    if Path.isAbsolute path then []
    else ((Path.parts disk.workingDirectory).filter (· != "")).reverse
  disk.follow start (Path.parts path)

def find (disk : Disk) (path : String) : Except FileProblem DiskNode :=
  match disk.locate path with
  | .error problem => .error problem
  | .ok place =>
      match disk.node? place with
      | some node => .ok node
      | none => .error .missing

def put (disk : Disk) (place : List String) (node : DiskNode) : Disk :=
  { disk with nodes := disk.nodes.set (placeText place) node }

def fetchFile (disk : Disk) (path : String) : Except FileFault Bytes :=
  match disk.find path with
  | .ok (.file content) => .ok content
  | .ok .directory => .error ⟨.reading, path, .isDirectory⟩
  | .error problem => .error ⟨.opening, path, problem⟩

def makeDirectory (disk : Disk) (path : String) : Except FileFault Disk :=
  match disk.locate path with
  | .error problem => .error ⟨.makingDirectory, path, problem⟩
  | .ok place =>
      match disk.node? place with
      | some .directory => .ok disk
      | some (.file _) => .error ⟨.makingDirectory, path, .notDirectory⟩
      | none => .ok (disk.put place .directory)

/-- Makes the directories of a path from the first part on.  A file at the end of
the path is no directory; one further up takes the place of a directory. -/
def makeDirectoriesFrom (disk : Disk) (absolute : Bool) :
    List String → List String → Except FileFault Disk
  | _, [] => .ok disk
  | before, part :: rest =>
      let reached := before ++ [part]
      let path := Path.ofParts absolute reached
      match disk.makeDirectory path with
      | .error fault =>
          .error (if rest.isEmpty then fault else ⟨.makingDirectory, path ++ "/", .occupied⟩)
      | .ok made => makeDirectoriesFrom made absolute reached rest

def makeDirectories (disk : Disk) (path : String) : Except FileFault Disk :=
  disk.makeDirectoriesFrom (Path.isAbsolute path) [] ((Path.parts path).filter (· != ""))

def storeFile (disk : Disk) (path : String) (content : Bytes) : Except FileFault Disk :=
  match disk.locate path with
  | .error problem => .error ⟨.opening, path, problem⟩
  | .ok place =>
      match disk.node? place with
      | some .directory => .error ⟨.opening, path, .isDirectory⟩
      | _ => .ok (disk.put place (.file content))

def files (disk : Disk) : List (String × Bytes) :=
  disk.nodes.entries.filterMap fun (path, node) =>
    match node with
    | .file content => some (path, content)
    | .directory => none

/-- The paths of all files below a directory, seen from there. -/
def filesBelow (disk : Disk) (directory : String) : List String :=
  let start := (directory ++ "/").toList
  disk.files.filterMap fun (path, _) =>
    if start.isPrefixOf path.toList then some (String.ofList (path.toList.drop start.length))
    else none

/-- Puts a file with all directories above it on a disk.  A path that ends in a
slash is a directory. -/
def install (disk : Disk) (path : String) (content : Bytes) : Except FileFault Disk := do
  let made ← disk.makeDirectories (Path.directory path)
  if path.toList.getLast? = some '/' then return made else made.storeFile path content

def blank (directory : String) : Except FileFault Disk :=
  (⟨.empty, directory, [], 0⟩ : Disk).makeDirectories directory

def idOf (number : Nat) : String :=
  let digits := toString number
  "00000000-0000-4000-8000-" ++ String.ofList (List.replicate (12 - digits.length) '0') ++ digits

def attempt (step : Disk → Except FileFault Disk) : StateM Disk (Except FileFault Unit) :=
  modifyGet fun disk =>
    match step disk with
    | .ok changed => (.ok (), changed)
    | .error fault => (.error fault, disk)

def host : Host (StateM Disk) where
  workingDirectory := return (← get).workingDirectory
  isPresent path := return ((← get).find path).toOption.isSome
  fetchFile path := return (← get).fetchFile path
  makeDirectories path := attempt (·.makeDirectories path)
  storeFile path content := attempt (·.storeFile path content)
  input := return (← get).input
  now := return 0
  newId := modifyGet fun disk => (idOf disk.ids, { disk with ids := disk.ids + 1 })

end Disk

end RegisterCompiler
