/-
Compiling a program text and running the result.

A text is read, checked, simplified if that is asked for, and compiled to an
image.  The first stage that fails ends the build.
-/

import RegisterCompiler.Generator
import RegisterCompiler.Image
import RegisterCompiler.Machine
import RegisterCompiler.Program.Analysis
import RegisterCompiler.Program.Parser
import RegisterCompiler.Program.Simplify

set_option autoImplicit false

namespace RegisterCompiler

open Text (Bytes)

structure BuildOptions where
  generator : GeneratorOptions
  simplify : Bool
  includeSource : Bool
deriving Repr, DecidableEq, Inhabited

namespace BuildOptions

def standard : BuildOptions where
  generator := .standard
  simplify := true
  includeSource := false

end BuildOptions

inductive BuildFault where
  | unreadable (failure : ParseFailure)
  | misused (complaints : List Complaint)
  | cancelled
  | refused (refusal : ContextRefusal)
  | stuck (fault : GeneratorFault)
  | incomplete (fault : NumberedFault)
deriving Repr

namespace BuildFault

def message : BuildFault → String
  | unreadable failure => summarize failure.messages
  | misused complaints => summarize (complaints.map Complaint.message)
  | cancelled => "context canceled"
  | refused refusal => refusal.message
  | stuck fault => fault.message
  | incomplete fault => fault.message

end BuildFault

structure CheckedProgram where
  program : Program
  warnings : List UnassignedRead
deriving Repr

def check (text : Bytes) : Except BuildFault CheckedProgram :=
  match parse text with
  | .error failure => .error (.unreadable failure)
  | .ok program =>
      let findings := analyze program
      if findings.complaints.isEmpty then .ok ⟨program, findings.warnings⟩
      else .error (.misused findings.complaints)

structure GeneratedCode where
  listing : Listing
  placements : List Placement
deriving Repr

def generateCode (options : GeneratorOptions) (program : Program) :
    Except BuildFault GeneratedCode :=
  match Context.create options with
  | .error refusal => .error (.refused refusal)
  | .ok context =>
      match context.generate program with
      | (.error fault, _) => .error (.stuck fault)
      | (.ok _, after) => .ok ⟨after.listing, after.placements.toList⟩

/-- A finished build.  Where names were placed is not known of a build that was
stored before. -/
structure Build where
  image : Image
  placements : Option (List Placement)
  warnings : List UnassignedRead
  cached : Bool
deriving Repr

namespace Build

def text (build : Build) : String :=
  build.image.text

/-- The cycles charged for executing every instruction once. -/
def staticCost (build : Build) : UInt64 :=
  RegisterCompiler.staticCost build.image.instructions

end Build

def BuildOptions.prepare (options : BuildOptions) (program : Program) : Program :=
  if options.simplify then program.simplify else program

/-- Builds a text under an id.  A cancelled build stops after checking. -/
def build (options : BuildOptions) (id : String) (cancelled : Bool) (text : Bytes) :
    Except BuildFault Build := do
  let checked ← check text
  if cancelled then
    throw .cancelled
  let generated ← generateCode options.generator (options.prepare checked.program)
  match Image.ofListing id options.generator.registers generated.listing with
  | .error fault => throw (.incomplete fault)
  | .ok image =>
      let source := if options.includeSource then text else []
      return ⟨{ image with source := source }, some generated.placements, checked.warnings, false⟩

private theorem exists_of_bind_eq_ok {α β : Type} {first : Except BuildFault α}
    {next : α → Except BuildFault β} {result : β} (hRun : (first >>= next) = .ok result) :
    ∃ value, first = .ok value ∧ next value = .ok result := by
  cases first with
  | error fault => contradiction
  | ok value => exact ⟨value, rfl, hRun⟩

/-- What a build that succeeds went through. -/
theorem exists_of_build_eq_ok {options : BuildOptions} {id : String} {cancelled : Bool}
    {text : Bytes} {built : Build} (hBuild : build options id cancelled text = .ok built) :
    cancelled = false ∧ ∃ checked generated code, check text = .ok checked ∧
      generateCode options.generator (options.prepare checked.program) = .ok generated ∧
      generated.listing.decode = .ok code ∧
      built = ⟨⟨Image.currentVersion, id, options.generator.registers, some code,
        if options.includeSource then text else []⟩, some generated.placements,
        checked.warnings, false⟩ := by
  obtain ⟨checked, hCheck, hChecked⟩ := exists_of_bind_eq_ok hBuild
  cases cancelled with
  | true => contradiction
  | false =>
      obtain ⟨generated, hCode, hGenerated⟩ := exists_of_bind_eq_ok hChecked
      simp only [Image.ofListing] at hGenerated
      cases hDecode : generated.listing.decode with
      | error fault =>
          rw [hDecode] at hGenerated
          contradiction
      | ok code =>
          rw [hDecode] at hGenerated
          exact ⟨rfl, checked, generated, code, hCheck, hCode, hDecode,
            (Except.ok.inj hGenerated).symm⟩

inductive StartFault where
  | imageNeedsMore (needed found : Int)
  | tooFew (fault : TooFewRegisters)
deriving Repr, DecidableEq

namespace StartFault

def message : StartFault → String
  | imageNeedsMore needed found => s!"image needs {needed} registers, machine has {found}"
  | tooFew fault => fault.message

end StartFault

namespace Image

/-- The machine that is to run an image.  Without a number of registers it has
those of the image. -/
def machine (image : Image) (config : MachineConfig) : Except StartFault Machine :=
  let registers := if config.registers = 0 then image.registers else config.registers
  if registers < image.registers then
    .error (.imageNeedsMore image.registers registers)
  else
    (Machine.create image.instructions { config with registers := registers }).mapError .tooFew

def run (image : Image) (config : MachineConfig) :
    Except StartFault (Except RunFault Unit × Machine) :=
  (image.machine config).map Machine.run

end Image

inductive TextFault where
  | unreadable (fault : NumberedFault)
  | tooFew (fault : TooFewRegisters)
deriving Repr, DecidableEq

namespace TextFault

def message : TextFault → String
  | unreadable fault => fault.message
  | tooFew fault => fault.message

end TextFault

def runText (text : String) (config : MachineConfig) :
    Except TextFault (Except RunFault Unit × Machine) := do
  let code ← (assemble text).mapError .unreadable
  let machine ← (Machine.create code config).mapError .tooFew
  return machine.run

end RegisterCompiler
