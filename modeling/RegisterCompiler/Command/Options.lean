/-
What the command can be told.
-/

import RegisterCompiler.Command.Flag

set_option autoImplicit false

namespace RegisterCompiler
namespace Command

/-- What the command was told.  An empty text and the number zero say nothing. -/
structure Options where
  output : String
  image : String
  executable : String
  configuration : String
  cache : String
  registers : Int
  profile : Int
  verbosity : Int
  run : Bool
  cost : Bool
  asWritten : Bool
  editor : Bool
deriving Repr, DecidableEq, Inhabited

namespace Options

def empty : Options where
  output := ""
  image := ""
  executable := ""
  configuration := ""
  cache := ""
  registers := 0
  profile := 0
  verbosity := 0
  run := false
  cost := false
  asWritten := false
  editor := false

def flags : List (Flag Options) := [
  ⟨"cache", "Build cache database (default: from regc.toml)",
    .text fun value options => { options with cache := value }⟩,
  ⟨"config", "Directory containing regc.toml (default: search upward from the working directory)",
    .text fun value options => { options with configuration := value }⟩,
  ⟨"cost", "Print the static cost, and the dynamic cost when running",
    .switch fun value options => { options with cost := value }⟩,
  ⟨"exec", "Run a binary image instead of compiling",
    .text fun value options => { options with executable := value }⟩,
  ⟨"image", "Write a binary image to this file",
    .text fun value options => { options with image := value }⟩,
  ⟨"lsp", "Start the language server on stdio",
    .switch fun value options => { options with editor := value }⟩,
  ⟨"no-opt", "Disable the optimizer",
    .switch fun value options => { options with asWritten := value }⟩,
  ⟨"o", "Write the program text to this file",
    .text fun value options => { options with output := value }⟩,
  ⟨"profile", "After running, print the N most executed lines",
    .number fun value options => { options with profile := value }⟩,
  ⟨"regs", "Override the machine's register count",
    .number fun value options => { options with registers := value }⟩,
  ⟨"run", "Run the program after compiling",
    .switch fun value options => { options with run := value }⟩,
  ⟨"v", "Log verbosity (0-4)",
    .number fun value options => { options with verbosity := value }⟩]

def read (arguments : List String) : Except FlagFault (Options × List String) :=
  Flag.readAll flags none empty arguments

end Options

def usage : String :=
  "Usage: regc [options] [file]\n\n" ++
  "Compiles a program to register machine code. Without a file the entry\n" ++
  "from regc.toml is used.\n\n" ++
  "Options:\n" ++
  String.join (Options.flags.map Flag.summary) ++
  "\nExamples:\n" ++
  "  regc prog.imp                 # Print the program\n" ++
  "  regc -o prog.mr prog.imp      # Write the program to prog.mr\n" ++
  "  regc -run -cost prog.imp      # Compile, run, report costs\n" ++
  "  regc -image prog.rimg prog.imp\n" ++
  "  regc -exec prog.rimg          # Run a saved image\n" ++
  "  regc -lsp                     # Language server for editors\n"

end Command
end RegisterCompiler
