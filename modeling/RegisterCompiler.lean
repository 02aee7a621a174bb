import RegisterCompiler.Arithmetic
import RegisterCompiler.Build
import RegisterCompiler.BuildCache
import RegisterCompiler.BuildCache.File
import RegisterCompiler.Cbor
import RegisterCompiler.Command
import RegisterCompiler.Command.Flag
import RegisterCompiler.Command.Options
import RegisterCompiler.Digest
import RegisterCompiler.Editor.Diagnostic
import RegisterCompiler.Editor.Insight
import RegisterCompiler.Editor.Message
import RegisterCompiler.Editor.Session
import RegisterCompiler.Editor.Traffic
import RegisterCompiler.Editor.Word
import RegisterCompiler.Editor.Worker
import RegisterCompiler.Generator
import RegisterCompiler.Generator.Calculation
import RegisterCompiler.Generator.Comparison
import RegisterCompiler.Generator.Context
import RegisterCompiler.Generator.Operand
import RegisterCompiler.Generator.Pointer
import RegisterCompiler.Generator.Registers
import RegisterCompiler.Host
import RegisterCompiler.Host.Disk
import RegisterCompiler.Image
import RegisterCompiler.Instruction
import RegisterCompiler.Instruction.Decode
import RegisterCompiler.Label
import RegisterCompiler.Layout
import RegisterCompiler.Listing
import RegisterCompiler.Machine
import RegisterCompiler.Main
import RegisterCompiler.Manifest
import RegisterCompiler.OrderedMap
import RegisterCompiler.Path
import RegisterCompiler.Program
import RegisterCompiler.Program.Analysis
import RegisterCompiler.Program.Misuse
import RegisterCompiler.Program.Parser
import RegisterCompiler.Program.Simplify
import RegisterCompiler.Proofs.Execution
import RegisterCompiler.Source.Position
import RegisterCompiler.Store
import RegisterCompiler.Store.Arena
import RegisterCompiler.Store.Registers
import RegisterCompiler.Store.Space
import RegisterCompiler.Store.Symbols
import RegisterCompiler.Store.Value
import RegisterCompiler.Text.Blank
import RegisterCompiler.Text.Decimal
import RegisterCompiler.Text.Hex
import RegisterCompiler.Text.Printable
import RegisterCompiler.Text.Quoted
import RegisterCompiler.Text.Radix
import RegisterCompiler.Text.Utf8
import RegisterCompiler.Token
import RegisterCompiler.Token.Lexer
import RegisterCompiler.Toml
import RegisterCompiler.Toml.Draft
import RegisterCompiler.Toml.Reader
import RegisterCompiler.Toml.Scalar
import RegisterCompiler.Proofs.Simplification
import RegisterCompiler.Proofs.Machine.Snapshot
import RegisterCompiler.Proofs.Machine.Refinement
import RegisterCompiler.Proofs.Machine.Moments
import RegisterCompiler.Proofs.Machine.Arithmetic
import RegisterCompiler.Proofs.Machine.Silence
import RegisterCompiler.Proofs.Instruction.Text
import RegisterCompiler.Proofs.Store.Arena
import RegisterCompiler.Proofs.Store.OrderedMap
import RegisterCompiler.Proofs.Store.Soundness
import RegisterCompiler.Proofs.Store.Registers
import RegisterCompiler.Proofs.Store.Cells
import RegisterCompiler.Proofs.Store.Names
import RegisterCompiler.Proofs.Store.Placing
import RegisterCompiler.Proofs.Generator.Growth
import RegisterCompiler.Proofs.Generator.Passage
import RegisterCompiler.Proofs.Generator.Coherence
import RegisterCompiler.Proofs.Generator.Ensures
import RegisterCompiler.Proofs.Generator.Work
import RegisterCompiler.Proofs.Generator.Registers
import RegisterCompiler.Proofs.Generator.Scratch
import RegisterCompiler.Proofs.Generator.Operand
import RegisterCompiler.Proofs.Generator.Storing
import RegisterCompiler.Proofs.Generator.Resolution
import RegisterCompiler.Proofs.Generator.Calculation
import RegisterCompiler.Proofs.Generator.Control
import RegisterCompiler.Proofs.Generator.Comparison
import RegisterCompiler.Proofs.Generator.Commands
import RegisterCompiler.Proofs.Generator.Branching
import RegisterCompiler.Proofs.Generator.Counting
import RegisterCompiler.Proofs.Generator.Rounds
import RegisterCompiler.Proofs.Generator.Declarations
import RegisterCompiler.Proofs.Generator.Bodies
import RegisterCompiler.Proofs.Generator.Compilation
import RegisterCompiler.Proofs.Program.Parsing
import RegisterCompiler.Proofs.Generator.Closure
import RegisterCompiler.Proofs.Totality
import RegisterCompiler.Proofs.Generator.Termination
import RegisterCompiler.Proofs.Correctness
import RegisterCompiler.Proofs.Generator.Routine
import RegisterCompiler.Proofs.Program.Legality
import RegisterCompiler.Proofs.BuildCache.Histories
import RegisterCompiler.Proofs.Generator.Placements
import RegisterCompiler.Proofs.Image.Listing
import RegisterCompiler.Proofs.Program.Derivation
import RegisterCompiler.Proofs.Program.Recognition
import RegisterCompiler.Proofs.Generator.Visits
import RegisterCompiler.Proofs.Generator.Arrivals
import RegisterCompiler.Proofs.Generator.Entrances
import RegisterCompiler.Proofs.Generator.Refusals
import RegisterCompiler.Proofs.Generator.Agreement
import RegisterCompiler.Proofs.Store.Marks
import RegisterCompiler.Proofs.Store.Housing
import RegisterCompiler.Proofs.Generator.Ledger
import RegisterCompiler.Proofs.Generator.Thrift
import RegisterCompiler.Proofs.Generator.Gains
import RegisterCompiler.Proofs.Generator.Furnishing
import RegisterCompiler.Proofs.Generator.Bookkeeping
import RegisterCompiler.Proofs.Store.Vacancies
import RegisterCompiler.Proofs.Generator.Frugality
import RegisterCompiler.Proofs.Generator.Needs
import RegisterCompiler.Proofs.Generator.Sights
import RegisterCompiler.Proofs.Generator.Recall
import RegisterCompiler.Proofs.Generator.Shadowing
import RegisterCompiler.Proofs.Generator.Simplified
import RegisterCompiler.Proofs.Text.Utf8
import RegisterCompiler.Proofs.Cbor.Reading
import RegisterCompiler.Proofs.Image.RoundTrip
import RegisterCompiler.Proofs.Image.Builds
import RegisterCompiler.Proofs.BuildCache.Deliveries
import RegisterCompiler.Proofs.Store.Histories
import RegisterCompiler.Proofs.Store.Handles
import RegisterCompiler.Proofs.Store.Pairing
import RegisterCompiler.Proofs.Store.Claims
import RegisterCompiler.Proofs.Store.Apportioning
import RegisterCompiler.Proofs.Store.Ownership
import RegisterCompiler.Proofs.Store.Grants
import RegisterCompiler.Proofs.Store.Collisions
import RegisterCompiler.Proofs.Generator.Readings
import RegisterCompiler.Proofs.Generator.Evaluation
import RegisterCompiler.Proofs.Generator.Decision
import RegisterCompiler.Proofs.Editor.Requests
import RegisterCompiler.Proofs.Editor.Notices
import RegisterCompiler.Proofs.Program.Rewriting
import RegisterCompiler.Proofs.Program.Settled
import RegisterCompiler.Proofs.Generator.Stacking
import RegisterCompiler.Proofs.Generator.Sufficiency
import RegisterCompiler.Proofs.Generator.Lookups
import RegisterCompiler.Proofs.Generator.Headway
import RegisterCompiler.Proofs.Generator.Propagation
import RegisterCompiler.Proofs.Text.Glyphs
import RegisterCompiler.Proofs.Text.Pieces
import RegisterCompiler.Proofs.Source.Position
import RegisterCompiler.Proofs.Token.Tiling
import RegisterCompiler.Proofs.Token.Rows
import RegisterCompiler.Proofs.Program.Places
import RegisterCompiler.Proofs.Program.Spans
import RegisterCompiler.Proofs.Program.Halting
import RegisterCompiler.Proofs.Machine.Limits
import RegisterCompiler.Proofs.Machine.Accounts
import RegisterCompiler.Proofs.Program.Reports
import RegisterCompiler.Proofs.Program.Complaints
import RegisterCompiler.Proofs.Editor.Messages
import RegisterCompiler.Proofs.Store.ArrayNames
import RegisterCompiler.Proofs.Generator.ArrayNames
import RegisterCompiler.Proofs.Editor.Wording
import RegisterCompiler.Proofs.Editor.Diagnostics
import RegisterCompiler.Proofs.Token.Neighbours
import RegisterCompiler.Proofs.Editor.Words
import RegisterCompiler.Proofs.Machine.Blocks
import RegisterCompiler.Proofs.Generator.Loops
import RegisterCompiler.Proofs.Store.FirstFit
import RegisterCompiler.Proofs.Instruction.RoundTrip
import RegisterCompiler.Proofs.Generator.Numbers
import RegisterCompiler.Proofs.Store.Symbols
import RegisterCompiler.Proofs.Store.SymbolHistories
