import ToonScript.Main
import ToonScript.Proofs.Sequencing
import ToonScript.Proofs.Balance
import ToonScript.Proofs.Tree.Expression
import ToonScript.Proofs.Evaluation
import ToonScript.Proofs.Forward
import ToonScript.Proofs.Tree.Brackets
import ToonScript.Proofs.Primitive
import ToonScript.Proofs.Route
import ToonScript.Proofs.Movement
import ToonScript.Proofs.Simulation
import ToonScript.Proofs.Execution
import ToonScript.Proofs.Concatenation
import ToonScript.Proofs.Tree.Interpreter
import ToonScript.Proofs.Mirror
import ToonScript.Proofs.Refinement
import ToonScript.Proofs.Tree.Printing
import ToonScript.Proofs.Plan
import ToonScript.Proofs.Veil
import ToonScript.Proofs.Strictness
import ToonScript.Proofs.Contract
import ToonScript.Proofs.Written
import ToonScript.Proofs.ValueTypes
import ToonScript.Proofs.Opacity
import ToonScript.Proofs.Json.RoundTrip
import ToonScript.Proofs.DumpRoundTrip
import ToonScript.Proofs.Timeline
import ToonScript.Proofs.Variables
import ToonScript.Proofs.Verbosity
import ToonScript.Proofs.TraceFile
import ToonScript.Proofs.Control
import ToonScript.Proofs.Discipline
import ToonScript.Proofs.Remainder
import ToonScript.Proofs.Classification
import ToonScript.Proofs.Grammar
import ToonScript.Proofs.Atomicity
import ToonScript.Proofs.Reading
import ToonScript.Proofs.BatchRuns
import ToonScript.Proofs.IntegerArithmetic
import ToonScript.Proofs.Sums
import ToonScript.Proofs.Pattern
import ToonScript.Proofs.Chunks
import ToonScript.Proofs.SourceLines
import ToonScript.Proofs.Typing
import ToonScript.Proofs.CompoundAssignment
import ToonScript.Proofs.IntegerNumerals
import ToonScript.Proofs.StringLiterals
import ToonScript.Proofs.LoadedDumps
import ToonScript.Proofs.ValueOrder
import ToonScript.Proofs.MatchingCloser
import ToonScript.Proofs.Termination
