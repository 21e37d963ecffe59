import QuakeProgs.Main
import QuakeProgs.CommandLine
import QuakeProgs.Snapshot
import QuakeProgs.Machine.Execute
import QuakeProgs.Machine.Step
import QuakeProgs.Machine.Engine
import QuakeProgs.Diagnostics.Report
import QuakeProgs.Symbols
import QuakeProgs.EdictStore
import QuakeProgs.CallStack
import QuakeProgs.Profile
import QuakeProgs.Random
import QuakeProgs.Image.Load
import QuakeProgs.Image.Builder
import QuakeProgs.Digest
import QuakeProgs.Image.Record
import QuakeProgs.GlobalBlock
import QuakeProgs.StringTable
import QuakeProgs.Opcode
import QuakeProgs.Bytes
import QuakeProgs.Single.Transcendental
import QuakeProgs.Text.Utf8
import QuakeProgs.Value
import QuakeProgs.Error
import QuakeProgs.Proofs.Store.Layout
import QuakeProgs.Proofs.Store.Records
import QuakeProgs.Proofs.Store.Refinement
import QuakeProgs.Proofs.Store.Allocation
import QuakeProgs.Proofs.Store.Batches
import QuakeProgs.Proofs.Store.Resuming
import QuakeProgs.Proofs.Store.Reuse
import QuakeProgs.Proofs.Store.Packing
import QuakeProgs.Proofs.Machine.Outcome
import QuakeProgs.Proofs.Machine.Evolution
import QuakeProgs.Proofs.Machine.Builtins
import QuakeProgs.Proofs.Strings.Regions
import QuakeProgs.Proofs.Image.Layout
import QuakeProgs.Proofs.Image.Checks
import QuakeProgs.Proofs.Image.Acceptance
import QuakeProgs.Proofs.Strings.References
import QuakeProgs.Proofs.Strings.Growth
import QuakeProgs.Proofs.Image.RoundTrip
import QuakeProgs.Proofs.Image.Building
import QuakeProgs.Proofs.Machine.Statements
import QuakeProgs.Proofs.Machine.Turn
import QuakeProgs.Proofs.Machine.Calls
import QuakeProgs.Proofs.Machine.Run
import QuakeProgs.Proofs.Machine.Commands
import QuakeProgs.Proofs.Machine.Reachable
import QuakeProgs.Proofs.Machine.Safety
import QuakeProgs.Proofs.Machine.Balance
import QuakeProgs.Proofs.Machine.Arguments
import QuakeProgs.Proofs.Machine.Pairs
import QuakeProgs.Proofs.Machine.Blindness
import QuakeProgs.Proofs.Machine.Lockstep
import QuakeProgs.Proofs.Machine.Resting
import QuakeProgs.Proofs.Machine.Assembly
import QuakeProgs.Proofs.Machine.Course
import QuakeProgs.Proofs.Machine.Aborts
import QuakeProgs.Proofs.Machine.Residue
import QuakeProgs.Proofs.Machine.Drawing
import QuakeProgs.Proofs.Machine.Resumption
import QuakeProgs.Proofs.Snapshot.Encoding
import QuakeProgs.Proofs.Snapshot.Restoring
import QuakeProgs.Proofs.Snapshot.Texts
import QuakeProgs.Proofs.Machine.Passing
import QuakeProgs.Proofs.Machine.Uniformity
import QuakeProgs.Proofs.Machine.Limits
import QuakeProgs.Proofs.Machine.Metering
import QuakeProgs.Proofs.Machine.Framing
import QuakeProgs.Proofs.Machine.Traces
import QuakeProgs.Proofs.Machine.Operations
import QuakeProgs.Proofs.Builtin.Numbering
import QuakeProgs.Proofs.Machine.Pointers
import QuakeProgs.Proofs.Session.Frames
import QuakeProgs.Proofs.Builtin.Scans
import QuakeProgs.Proofs.Machine.Sparing
import QuakeProgs.Proofs.Machine.Removals
import QuakeProgs.Proofs.Diagnostics.Listings
import QuakeProgs.Proofs.Image.Closure
import QuakeProgs.Proofs.Machine.Confinement
import QuakeProgs.Proofs.Image.Lookups
import QuakeProgs.Proofs.Machine.Replacement
import QuakeProgs.Proofs.Machine.NamedFields
import QuakeProgs.Proofs.Strings.Comparison
