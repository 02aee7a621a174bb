/-
The settings of a project.

A project keeps its settings in a file in its directory.  Upper and lower case make
no difference in keys; keys without a meaning are left alone.  What the file does
not say has a default.
-/

import RegisterCompiler.Generator.Context
import RegisterCompiler.Host
import RegisterCompiler.Text.Quoted
import RegisterCompiler.Toml.Reader

set_option autoImplicit false

namespace RegisterCompiler

open Text (Bytes)

structure Manifest where
  projectName : String
  projectVersion : String
  sourceDirectories : List String
  entry : String
  registers : Int
  stepLimit : UInt64
  loop : List UInt64
  scalars : List UInt64
  arrays : List UInt64
  oversizedBase : String
  simplify : Bool
  propagate : Bool
  programFile : String
  imageFile : String
  includeSource : Bool
  cacheFile : String
  cacheDisabled : Bool
  directory : String
deriving Repr, DecidableEq, Inhabited

inductive SettingFault where
  | notPair (name : String) (values : List UInt64)
  | baseNotNumber (text : String)
  | layout (fault : LayoutFault)
  | fewRegisters (count : Int)
deriving Repr, DecidableEq

namespace SettingFault

def message : SettingFault → String
  | notPair name values =>
      let listed := String.intercalate " " (values.map fun value => toString value.toNat)
      s!"layout.{name} must be [first, last], got [{listed}]"
  | baseNotNumber text =>
      let quoted := Text.quote text
      s!"layout.oversized-base {quoted} is not a number"
  | layout fault => fault.message
  | fewRegisters count => s!"machine needs at least 2 registers, got {count}"

end SettingFault

inductive ManifestFault where
  | unreadable (path : String) (fault : FileFault)
  | malformed (path : String)
  | unusable (path : String) (fault : SettingFault)
deriving Repr, DecidableEq

namespace ManifestFault

def message : ManifestFault → String
  | unreadable path fault => s!"cannot read {path}: {fault.message}"
  | malformed path => s!"parse error in {path}"
  | unusable path fault => s!"{path}: {fault.message}"

end ManifestFault

namespace Manifest

def fileName : String := "regc.toml"

def defaultCacheFile : String := ".regc/cache.db"

def bounds (range : AddressRange) : List UInt64 :=
  [range.first, range.last]

/-! ### Reading -/

/-- A letter without its case.  Two letters beyond the ASCII ones are variants of
an ASCII letter. -/
def foldCase (char : Char) : Char :=
  if char == '\u017f' then 's'
  else if char == '\u212a' then 'k'
  else char.toLower

def sameName (left right : String) : Bool :=
  left.toList.map foldCase == right.toList.map foldCase

/-- The values of the keys with a name, in any spelling of it. -/
def fields (entries : List (String × Toml.Value)) (name : String) : List Toml.Value :=
  (entries.filter fun entry => sameName entry.1 name).map Prod.snd

/-- Reads the value of a key, if the key is there.  The outer `none` is a value of
the wrong kind; of several spellings of the key the last one counts. -/
def optional {α : Type} (read : Toml.Value → Option α) (entries : List (String × Toml.Value))
    (name : String) : Option (Option α) :=
  ((fields entries name).mapM read).map List.getLast?

def asText : Toml.Value → Option String
  | .scalar (.text content) => some content
  | _ => none

def asBoolean : Toml.Value → Option Bool
  | .scalar (.boolean flag) => some flag
  | _ => none

def asInteger : Toml.Value → Option Int
  | .scalar (.integer number) => some number
  | _ => none

/-- Reads a whole number as an unsigned word, modulo 2^64. -/
def asWord (value : Toml.Value) : Option UInt64 :=
  (asInteger value).map fun (number : Int) =>
    (number % (UInt64.size : Int)).toNat.toUInt64

def asList {α : Type} (read : Toml.Value → Option α) : Toml.Value → Option (List α)
  | .array items => items.mapM read
  | _ => none

def asTable : Toml.Value → Option (List (String × Toml.Value))
  | .table entries => some entries
  | _ => none

/-- The entries of a section; all spellings of its name together make the section. -/
def sectionOf (entries : List (String × Toml.Value)) (name : String) :
    Option (List (String × Toml.Value)) :=
  ((fields entries name).mapM asTable).map List.flatten

def orDefault {α : Type} [DecidableEq α] (value silent default : α) : α :=
  if value = silent then default else value

def ofEntries? (entries : List (String × Toml.Value)) (directory : String) : Option Manifest := do
  let project ← sectionOf entries "project"
  let source ← sectionOf entries "source"
  let machine ← sectionOf entries "machine"
  let layout ← sectionOf entries "layout"
  let compiler ← sectionOf entries "compiler"
  let output ← sectionOf entries "output"
  let cache ← sectionOf entries "cache"
  let standard := Layout.standard
  return {
    projectName := (← optional asText project "name").getD ""
    projectVersion := (← optional asText project "version").getD ""
    sourceDirectories :=
      orDefault ((← optional (asList asText) source "dirs").getD []) [] ["src"]
    entry := (← optional asText source "entry").getD ""
    registers := orDefault ((← optional asInteger machine "registers").getD 0) 0 8
    stepLimit := (← optional asWord machine "step-limit").getD 0
    loop := (← optional (asList asWord) layout "loop").getD (bounds standard.loop)
    scalars := (← optional (asList asWord) layout "scalars").getD (bounds standard.scalars)
    arrays := (← optional (asList asWord) layout "arrays").getD (bounds standard.arrays)
    oversizedBase := orDefault ((← optional asText layout "oversized-base").getD "") ""
      (toString standard.oversizedStart)
    simplify := (← optional asBoolean compiler "optimize").getD true
    propagate := (← optional asBoolean compiler "propagate").getD true
    programFile := (← optional asText output "program").getD ""
    imageFile := (← optional asText output "image").getD ""
    includeSource := (← optional asBoolean output "include-source").getD false
    cacheFile := orDefault ((← optional asText cache "path").getD "") "" defaultCacheFile
    cacheDisabled := (← optional asBoolean cache "disabled").getD false
    directory := directory }

def standard : Manifest :=
  (ofEntries? [] "").getD default

/-! ### Using -/

def rangeOf (name : String) (values : List UInt64) : Except SettingFault AddressRange :=
  match values with
  | [first, last] => .ok ⟨first, last⟩
  | _ => .error (.notPair name values)

def memoryLayout (manifest : Manifest) : Except SettingFault Layout := do
  let loop ← rangeOf "loop" manifest.loop
  let scalars ← rangeOf "scalars" manifest.scalars
  let arrays ← rangeOf "arrays" manifest.arrays
  match Text.integer? manifest.oversizedBase.toList with
  | none => throw (.baseNotNumber manifest.oversizedBase)
  | some base =>
      let layout : Layout := ⟨loop, scalars, arrays, some base⟩
      match layout.fault? with
      | some fault => throw (.layout fault)
      | none => return layout

def generatorOptions (manifest : Manifest) : Except SettingFault GeneratorOptions := do
  let layout ← manifest.memoryLayout
  return ⟨manifest.registers, layout, manifest.propagate⟩

def fault? (manifest : Manifest) : Option SettingFault :=
  match manifest.memoryLayout with
  | .error fault => some fault
  | .ok _ => if manifest.registers < 2 then some (.fewRegisters manifest.registers) else none

def sourcePaths (manifest : Manifest) : List String :=
  manifest.sourceDirectories.map (Path.join manifest.directory)

def entryPath (manifest : Manifest) : String :=
  if manifest.entry = "" || Path.isAbsolute manifest.entry then manifest.entry
  else Path.join manifest.directory manifest.entry

def cachePath (manifest : Manifest) : String :=
  if Path.isAbsolute manifest.cacheFile then manifest.cacheFile
  else Path.join manifest.directory manifest.cacheFile

def ofBytes (path directory : String) (content : Bytes) : Except ManifestFault Manifest :=
  match (Toml.parse content).bind (ofEntries? · directory) with
  | none => .error (.malformed path)
  | some manifest =>
      match manifest.fault? with
      | some fault => .error (.unusable path fault)
      | none => .ok manifest

/-! ### Loading -/

section Loading

variable {m : Type → Type} [Monad m]

def load (host : Host m) (directory : String) : m (Except ManifestFault Manifest) := do
  let path := Path.join directory fileName
  let base ← host.workingDirectory
  match ← host.fetchFile path with
  | .error fault => return .error (.unreadable path fault)
  | .ok content => return ofBytes path (Path.absolute base directory) content

/-- Loads the settings in a directory or the nearest one above it.  Every step
upward shortens the path, so the length of the path bounds their number. -/
def search (host : Host m) : Nat → String → m (Except ManifestFault (Option Manifest))
  | 0, _ => return .ok none
  | steps + 1, directory => do
      if ← host.isPresent (Path.join directory fileName) then
        return (← load host directory).map some
      else if Path.directory directory = directory then
        return .ok none
      else
        search host steps (Path.directory directory)

/-- Loads the settings that hold in a directory: its own, or else those of the
nearest directory above it. -/
def find (host : Host m) (start : String) : m (Except ManifestFault (Option Manifest)) := do
  let directory := Path.absolute (← host.workingDirectory) start
  search host (directory.length + 1) directory

end Loading

end Manifest

end RegisterCompiler
