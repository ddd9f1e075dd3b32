import Mini.Main
import Mini.Proofs.Datum.ReadBack
import Mini.Proofs.Execution.Returns
import Mini.Proofs.Execution.Verbosity
import Mini.Proofs.Grammar.Acceptance
import Mini.Proofs.Text.Classes
import Mini.Proofs.Text.Rows
import Mini.Proofs.Token.Division
import Mini.Proofs.Token.Heads
import Mini.Proofs.Token.Kinds
import Mini.Proofs.Token.Cutting
import Mini.Proofs.Token.Lexing
import Mini.Proofs.Token.Spaced
import Mini.Proofs.Token.Positions
import Mini.Proofs.Syntax.Canonical
import Mini.Proofs.Syntax.Literals
import Mini.Proofs.Syntax.Spelling
import Mini.Proofs.Syntax.Derived
import Mini.Proofs.Syntax.Places
import Mini.Proofs.Syntax.RoundTrip
import Mini.Proofs.Syntax.Locations
import Mini.Proofs.Execution.Restoration
import Mini.Proofs.Execution.Progress
import Mini.Proofs.Execution.PendingCalls
import Mini.Proofs.Execution.NewestStep
import Mini.Proofs.Heap.Depth
import Mini.Proofs.Heap.Comparison
import Mini.Proofs.Execution.Parallel
import Mini.Proofs.Heap.Relabelled
import Mini.Proofs.Scopes.Relabelled
import Mini.Proofs.Execution.Grafted
import Mini.Proofs.Execution.Rerun
import Mini.Proofs.CommandLine.Naming
import Mini.Proofs.CommandLine.Escapes
import Mini.Proofs.Syntax.Precedence
import Mini.Proofs.Grammar.FirstFault
import Mini.Proofs.Execution.Transcript
import Mini.Proofs.Execution.Keys
import Mini.Proofs.Scopes.Arena
import Mini.Proofs.Execution.Contained
import Mini.Proofs.Execution.Blamed
import Mini.Proofs.Heap.Rescoped
import Mini.Proofs.Scopes.Layered
import Mini.Proofs.Execution.Simulation
import Mini.Proofs.Execution.Rescoped
import Mini.Proofs.Execution.Ledger
import Mini.Proofs.Heap.Slots
import Mini.Proofs.Heap.Unfolding
import Mini.Proofs.Heap.Table
import Mini.Proofs.Execution.ArrayLiterals
import Mini.Proofs.Heap.Cycles
import Mini.Proofs.Execution.Evolution
import Mini.Proofs.Execution.NamesOnly
import Mini.Proofs.Execution.Termination
import Mini.Proofs.Execution.Cycles
import Mini.Proofs.Operator.Causes
import Mini.Proofs.Operator.Division
import Mini.Proofs.Token.Pairing
import Mini.Proofs.Token.StringLiterals
import Mini.Proofs.Syntax.Renaming
import Mini.Proofs.Execution.Renaming
