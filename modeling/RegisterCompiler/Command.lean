/-
The command.

It compiles a program, and on demand writes it to files, runs it and reports what
it costs; or it runs an image made before.  What it prints is collected together
with the outcome.
-/

import RegisterCompiler.BuildCache.File
import RegisterCompiler.Command.Options
import RegisterCompiler.Machine
import RegisterCompiler.Manifest

set_option autoImplicit false

namespace RegisterCompiler
namespace Command

open Text (Bytes)

structure Transcript where
  output : String
  notes : String
deriving Repr, DecidableEq, Inhabited

structure Report where
  exit : Nat
  transcript : Transcript
deriving Repr, DecidableEq, Inhabited

inductive Fault where
  | manifest (fault : ManifestFault)
  | setting (fault : SettingFault)
  | unreadable (path : String) (fault : FileFault)
  | cache (fault : CacheFileFault)
  | build (path : String) (fault : BuildFault)
  | file (fault : FileFault)
  | image (path : String) (fault : ImageFault)
  | machine (fault : TooFewRegisters)
  | run (fault : RunFault)
deriving Repr

namespace Fault

def message : Fault → String
  | manifest fault => fault.message
  | setting fault => fault.message
  | unreadable path fault => s!"cannot read {path}: {fault.message}"
  | cache fault => fault.message
  | build path fault => s!"{path}: {fault.message}"
  | file fault => fault.message
  | image path fault => s!"{path}: {fault.message}"
  | machine fault => fault.message
  | run fault => fault.message

end Fault

abbrev Task (m : Type → Type) := ExceptT Fault (StateT Transcript m)

section Tasks

variable {m : Type → Type} [Monad m]

def print (text : String) : Task m Unit :=
  modify fun transcript => { transcript with output := transcript.output ++ text }

def note (line : String) : Task m Unit :=
  modify fun transcript => { transcript with notes := transcript.notes ++ line ++ "\n" }

def attempt {α ε : Type} (fault : ε → Fault) (action : m (Except ε α)) : Task m α := do
  let outcome : Except ε α ← (action : m (Except ε α))
  match outcome with
  | .ok value => return value
  | .error cause => throw (fault cause)

/-! ### Settings -/

def loadManifest (host : Host m) (options : Options) : Task m Manifest := do
  if options.configuration ≠ "" then
    attempt .manifest (Manifest.load host options.configuration)
  else
    let directory ← (host.workingDirectory : m String)
    match ← attempt .manifest (Manifest.find host directory) with
    | some manifest => return manifest
    | none => return { Manifest.standard with directory := directory, cacheDisabled := true }

def configure (options : Options) (manifest : Manifest) : Manifest :=
  { manifest with
    registers := if options.registers ≠ 0 then options.registers else manifest.registers
    simplify := manifest.simplify && !options.asWritten
    cacheFile := if options.cache ≠ "" then options.cache else manifest.cacheFile
    cacheDisabled := manifest.cacheDisabled && options.cache = "" }

/-! ### Running -/

def padLeft (width : Nat) (text : String) : String :=
  String.ofList (List.replicate (width - text.length) ' ') ++ text

def profileLine (image : Image) (line count : Nat) : String :=
  let text := ((image.instructions[line]?).map Instruction.text).getD ""
  padLeft 6 (toString line) ++ "  " ++ padLeft 10 (toString count) ++ "  " ++ text

/-- Runs an image on a machine with the registers of the settings, or of the image
if that has more. -/
def runOn (host : Host m) (options : Options) (manifest : Manifest) (image : Image) :
    Task m Unit := do
  let input ← (host.input : m Bytes)
  let config : MachineConfig := {
    registers := max manifest.registers image.registers
    stepLimit := manifest.stepLimit.toNat
    input := some input
    sink := .unbounded
    profile := 0 < options.profile
    cancelled := false }
  match Machine.create image.instructions config with
  | .error fault => throw (.machine fault)
  | .ok machine =>
      let (outcome, after) := machine.run
      print after.outputText
      if options.cost then
        note s!"dynamic cost: {after.cost.toNat} ({after.steps} steps)"
      match outcome with
      | .error fault => throw (.run fault)
      | .ok () =>
          if 0 < options.profile then
            (after.hotLines options.profile).forM fun (line, count) =>
              note (profileLine image line count)

def executeFile (host : Host m) (options : Options) (manifest : Manifest) : Task m Unit := do
  let path := options.executable
  let content ← attempt (.unreadable path) (host.fetchFile path)
  match Image.decode content with
  | .error fault => throw (.image path fault)
  | .ok image => runOn host options manifest image

/-! ### Compiling -/

def storeFile (host : Host m) (path : String) (content : Bytes) : Task m Unit := do
  let directory := Path.directory path
  if directory ≠ "." then
    attempt .file (host.makeDirectories directory)
  attempt .file (host.storeFile path content)

def buildSource (host : Host m) (manifest : Manifest) (options : BuildOptions) (source : Bytes) :
    Task m (Except BuildFault Build) := do
  let id ← (host.newId : m String)
  if manifest.cacheDisabled then
    return RegisterCompiler.build options id false source
  else
    let cache ← attempt .cache (BuildCache.openFile host manifest.cachePath)
    let now ← (host.now : m Int)
    let (outcome, after) := cache.build now options id false source
    if after ≠ cache then
      attempt .cache (after.save host)
    return outcome

def compile (host : Host m) (options : Options) (manifest : Manifest) (path : String) :
    Task m Unit := do
  let source ← attempt (.unreadable path) (host.fetchFile path)
  let generator ← attempt .setting (pure manifest.generatorOptions)
  let buildOptions : BuildOptions := ⟨generator, manifest.simplify, manifest.includeSource⟩
  let built ← attempt (.build path) (pure (← buildSource host manifest buildOptions source))
  built.warnings.forM fun warning => note s!"{path}: {warning.message}"
  if options.output = "" && options.image = "" && !options.run then
    print built.text
  if options.output ≠ "" then
    storeFile host options.output (Text.encode built.text)
  if options.image ≠ "" then
    storeFile host options.image built.image.encode
  if options.cost then
    note s!"static cost: {built.staticCost.toNat} ({built.image.instructions.length} instructions)"
  if options.run then
    runOn host options manifest built.image

/-! ### The whole command -/

/-- Follows the options.  The outcome is the number to exit with. -/
def follow (host : Host m) (options : Options) (operands : List String) : Task m Nat := do
  let manifest := configure options (← loadManifest host options)
  if options.editor then
    discard (attempt .setting (pure manifest.generatorOptions) : Task m GeneratorOptions)
    return 0
  else if options.executable ≠ "" then
    executeFile host options manifest
    return 0
  else
    let named := operands.headD ""
    let path := if named = "" then manifest.entryPath else named
    if path = "" then
      modify fun transcript => { transcript with notes := transcript.notes ++ usage }
      return 2
    else
      compile host options manifest path
      return 0

def run (host : Host m) (arguments : List String) : m Report := do
  match Options.read arguments with
  | .error fault =>
      let problem := (fault.message?.map (· ++ "\n")).getD ""
      return ⟨if fault = .help then 0 else 2, ⟨"", problem ++ usage⟩⟩
  | .ok (options, operands) =>
      let (outcome, transcript) ← (follow host options operands).run.run ⟨"", ""⟩
      match outcome with
      | .ok exit => return ⟨exit, transcript⟩
      | .error fault =>
          return ⟨1, { transcript with notes := transcript.notes ++ s!"Error: {fault.message}\n" }⟩

end Tasks

end Command
end RegisterCompiler
