import TapeReduction.Alphabet
import TapeReduction.Alphabet.Text
import TapeReduction.Encoding
import TapeReduction.Equivalence.Bench
import TapeReduction.Equivalence.Check
import TapeReduction.Fault
import TapeReduction.Folder
import TapeReduction.Gallery
import TapeReduction.Json.Codec
import TapeReduction.Json.Reader
import TapeReduction.Json.Shape
import TapeReduction.Json.Value
import TapeReduction.Machine
import TapeReduction.Proofs.Block
import TapeReduction.Proofs.CheckReport
import TapeReduction.Proofs.Decoding
import TapeReduction.Proofs.DraftCalls
import TapeReduction.Proofs.DraftChecks
import TapeReduction.Proofs.Drafting
import TapeReduction.Proofs.Emulation
import TapeReduction.Proofs.Ending
import TapeReduction.Proofs.EndlessTape
import TapeReduction.Proofs.Exhibits
import TapeReduction.Proofs.FaultOrder
import TapeReduction.Proofs.Fragments
import TapeReduction.Proofs.GrammarReading
import TapeReduction.Proofs.GrammarTokens
import TapeReduction.Proofs.Growth
import TapeReduction.Proofs.Inputs
import TapeReduction.Proofs.Isolation
import TapeReduction.Proofs.KeyOrder
import TapeReduction.Proofs.Layout
import TapeReduction.Proofs.LineFields
import TapeReduction.Proofs.LineReading
import TapeReduction.Proofs.LineSheet
import TapeReduction.Proofs.LineTable
import TapeReduction.Proofs.Lockstep
import TapeReduction.Proofs.Marks
import TapeReduction.Proofs.Midstream
import TapeReduction.Proofs.NodeTables
import TapeReduction.Proofs.Numbering
import TapeReduction.Proofs.Parsing
import TapeReduction.Proofs.Paths
import TapeReduction.Proofs.PrintedTable
import TapeReduction.Proofs.RawInput
import TapeReduction.Proofs.Reachability
import TapeReduction.Proofs.Recovery
import TapeReduction.Proofs.Reduced
import TapeReduction.Proofs.ReducedPaths
import TapeReduction.Proofs.Region
import TapeReduction.Proofs.Resumption
import TapeReduction.Proofs.Reuse
import TapeReduction.Proofs.RowFaults
import TapeReduction.Proofs.RuleCount
import TapeReduction.Proofs.Run
import TapeReduction.Proofs.SearchEnd
import TapeReduction.Proofs.SharedNumbers
import TapeReduction.Proofs.Simulation
import TapeReduction.Proofs.SmallMachines
import TapeReduction.Proofs.StepBound
import TapeReduction.Proofs.TapeInvariant
import TapeReduction.Proofs.TraceText
import TapeReduction.Proofs.Verdict
import TapeReduction.Proofs.Walk
import TapeReduction.Reduction.Lockstep
import TapeReduction.Reduction.Program
import TapeReduction.Reduction.Role
import TapeReduction.Reduction.RoleName
import TapeReduction.Session
import TapeReduction.Source.Cursor
import TapeReduction.Source.Grammar
import TapeReduction.Source.Issue
import TapeReduction.Source.Peg
import TapeReduction.Source.Reading
import TapeReduction.Source.Sheet
import TapeReduction.Table.Basic
import TapeReduction.Table.Calls
import TapeReduction.Table.Printer
import TapeReduction.Table.Reachability
import TapeReduction.Tape
import TapeReduction.Text.Decimal
import TapeReduction.Text.Excerpt
import TapeReduction.Text.Quoted
import TapeReduction.Text.Unassigned
import TapeReduction.Trace
