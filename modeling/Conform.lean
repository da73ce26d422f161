import Conform.Calling
import Conform.Check
import Conform.CheckedList.Admission
import Conform.CheckedList.Method
import Conform.CheckedList.Operation
import Conform.CheckedList.Ordering
import Conform.Class
import Conform.Construction
import Conform.Descriptor.Coercion
import Conform.Descriptor.Factory
import Conform.Descriptor.Matching
import Conform.Descriptor.Subtyping
import Conform.Engine
import Conform.Evaluation
import Conform.Expr
import Conform.Fault
import Conform.Logging
import Conform.Nominal
import Conform.Number.Binary64
import Conform.Number.Reading
import Conform.Number.Shortest
import Conform.Operator
import Conform.Outcome
import Conform.Regex.Pattern
import Conform.Regex.Search
import Conform.Regex.Syntax
import Conform.Report
import Conform.Script.Function
import Conform.Script.Operation
import Conform.Script.Query
import Conform.Script.Step
import Conform.Selection
import Conform.Sequence
import Conform.Session
import Conform.Signature
import Conform.Snapshot
import Conform.Sorting
import Conform.Subscript
import Conform.Text.Alphabet
import Conform.Text.Case
import Conform.Text.Printable
import Conform.Text.Quoted
import Conform.Transforms
import Conform.Value
import Conform.Value.Attribute
import Conform.Value.Equality
import Conform.Value.Hash
import Conform.Value.Index
import Conform.Value.Items
import Conform.Value.Method
import Conform.Value.Order
import Conform.Value.Parts
import Conform.Value.Shown
import Conform.Value.Truth
import Conform.Zoo
import Conform.Proofs.Growth
import Conform.Proofs.Identity
import Conform.Proofs.Running
import Conform.Proofs.Parts
import Conform.Proofs.Judgement
import Conform.Proofs.Numbers
import Conform.Proofs.Reading
import Conform.Proofs.History
import Conform.Proofs.Below
import Conform.Proofs.Subtyping
import Conform.Proofs.Matching
import Conform.Proofs.Subsumption
import Conform.Proofs.Lasting
import Conform.Proofs.Upkeep
import Conform.Proofs.Admission
import Conform.Proofs.Contents
import Conform.Proofs.Pool
import Conform.Proofs.Transitivity
import Conform.Proofs.Ending
import Conform.Proofs.Comparison
import Conform.Proofs.Descent
import Conform.Proofs.Wording
import Conform.Proofs.Refusal
import Conform.Proofs.Vetting
import Conform.Proofs.Operand
import Conform.Proofs.Transforming
import Conform.Proofs.Incoming
import Conform.Proofs.Refinement
import Conform.Proofs.Course
import Conform.Proofs.Scripts
import Conform.Proofs.Resolution
import Conform.Proofs.Erasure
import Conform.Proofs.Kinship
import Conform.Proofs.Variance
import Conform.Proofs.Verbosity
import Conform.Proofs.Separation
import Conform.Proofs.Constancy
import Conform.Proofs.Freezing
import Conform.Proofs.Shortcuts
import Conform.Proofs.Deepening
import Conform.Proofs.Normalisation
import Conform.Proofs.Delivery
import Conform.Proofs.PlainData
import Conform.Proofs.Stability
import Conform.Proofs.Ranking
import Conform.Proofs.Slicing
import Conform.Proofs.Sifting
import Conform.Proofs.Extremes
import Conform.Proofs.Registry
import Conform.Proofs.Pipelines
import Conform.Proofs.Lifting
import Conform.Proofs.Rearranging
import Conform.Proofs.Indifference
import Conform.Proofs.Membership
import Conform.Proofs.Scalars
import Conform.Proofs.Equality
import Conform.Proofs.Reporting
