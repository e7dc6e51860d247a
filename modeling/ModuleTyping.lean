import ModuleTyping.Check
import ModuleTyping.Config.Basic
import ModuleTyping.Config.Reader
import ModuleTyping.Constraint
import ModuleTyping.Constructors
import ModuleTyping.Decimal
import ModuleTyping.Dict
import ModuleTyping.Event
import ModuleTyping.Fault
import ModuleTyping.Inference.Calls
import ModuleTyping.Inference.Members
import ModuleTyping.Inference.Operators
import ModuleTyping.Inference.Records
import ModuleTyping.Instantiation
import ModuleTyping.Json.Basic
import ModuleTyping.Json.Decode
import ModuleTyping.Json.Lexer
import ModuleTyping.Json.Number
import ModuleTyping.Json.Reader
import ModuleTyping.Json.Writer
import ModuleTyping.Literal
import ModuleTyping.Lowering.Basic
import ModuleTyping.Lowering.Declarations
import ModuleTyping.Lowering.Expressions
import ModuleTyping.Lowering.Inspection
import ModuleTyping.Lowering.Modules
import ModuleTyping.Lowering.Patterns
import ModuleTyping.Lowering.Programs
import ModuleTyping.Lowering.Types
import ModuleTyping.ModulePath
import ModuleTyping.Proofs.Inference.Announcements
import ModuleTyping.Proofs.Json.RoundTrip
import ModuleTyping.Proofs.Lowering.Bodies
import ModuleTyping.Proofs.Lowering.Constraints
import ModuleTyping.Proofs.Lowering.Declarations
import ModuleTyping.Proofs.Lowering.Diagnostics
import ModuleTyping.Proofs.Lowering.Effects
import ModuleTyping.Proofs.Lowering.Elaboration
import ModuleTyping.Proofs.Lowering.Exports
import ModuleTyping.Proofs.Lowering.Footprint
import ModuleTyping.Proofs.Lowering.Imports
import ModuleTyping.Proofs.Lowering.Neutrality
import ModuleTyping.Proofs.Lowering.Order
import ModuleTyping.Proofs.Lowering.Passes
import ModuleTyping.Proofs.Lowering.Scoping
import ModuleTyping.Proofs.Lowering.Settings
import ModuleTyping.Proofs.Lowering.Steps
import ModuleTyping.Proofs.Outcomes
import ModuleTyping.Proofs.Summary.Encoding
import ModuleTyping.Proofs.Summary.Fidelity
import ModuleTyping.Proofs.Summary.Loading
import ModuleTyping.Proofs.SymbolTable.Consistency
import ModuleTyping.Proofs.SymbolTable.Declared
import ModuleTyping.Proofs.SymbolTable.Holdings
import ModuleTyping.Proofs.SymbolTable.Listings
import ModuleTyping.Proofs.SymbolTable.Members
import ModuleTyping.Proofs.SymbolTable.Reordering
import ModuleTyping.Proofs.SymbolTable.Resolution
import ModuleTyping.Proofs.Ty.Grammar
import ModuleTyping.Proofs.Ty.Legible
import ModuleTyping.Proofs.Ty.Recognition
import ModuleTyping.Proofs.Ty.Rereading
import ModuleTyping.Proofs.Ty.RoundTrip
import ModuleTyping.Proofs.Ty.Scanning
import ModuleTyping.Proofs.Ty.Shapes
import ModuleTyping.Proofs.Typed.Purity
import ModuleTyping.Report
import ModuleTyping.Rule
import ModuleTyping.Scopes
import ModuleTyping.Source
import ModuleTyping.Span
import ModuleTyping.Substitution
import ModuleTyping.Summary.Basic
import ModuleTyping.Summary.Json
import ModuleTyping.Summary.Load
import ModuleTyping.SymbolTable.Basic
import ModuleTyping.SymbolTable.Functions
import ModuleTyping.SymbolTable.Types
import ModuleTyping.Text.Blank
import ModuleTyping.Text.Intervals
import ModuleTyping.Text.Lower
import ModuleTyping.Text.Quoted
import ModuleTyping.Text.Upper
import ModuleTyping.Text.Width
import ModuleTyping.Toml.Basic
import ModuleTyping.Toml.Reader
import ModuleTyping.Toml.Scalar
import ModuleTyping.Toml.Text
import ModuleTyping.Ty.Basic
import ModuleTyping.Ty.Names
import ModuleTyping.Ty.Reader
import ModuleTyping.Ty.Text
import ModuleTyping.Typed.Basic
import ModuleTyping.Typed.Coverage
import ModuleTyping.Typed.Matching
import ModuleTyping.Typed.Purity
import ModuleTyping.Unification.Soft
import ModuleTyping.Unification.Strict
import ModuleTyping.Proofs.SymbolTable.Chronology
import ModuleTyping.Proofs.Unification.Strict
import ModuleTyping.Proofs.Ty.Erasure
import ModuleTyping.Proofs.Unification.Erasure
import ModuleTyping.Proofs.Inference.Erasure
import ModuleTyping.Proofs.SymbolTable.Resemblance
import ModuleTyping.Proofs.Inference.Environments
import ModuleTyping.Proofs.Lowering.Meanings
import ModuleTyping.Proofs.Lowering.Mentions
import ModuleTyping.Proofs.Lowering.Kinship
import ModuleTyping.Proofs.SymbolTable.Exchange
import ModuleTyping.Proofs.Lowering.Registering
import ModuleTyping.Proofs.Lowering.TypePhase
import ModuleTyping.Proofs.Lowering.TypeOrder
import ModuleTyping.Proofs.Unification.Histories
import ModuleTyping.Proofs.Unification.Agreement
import ModuleTyping.Proofs.Instantiation.Acceptance
import ModuleTyping.Proofs.Instantiation.Renaming
import ModuleTyping.Proofs.Instantiation.Undetermined
import ModuleTyping.Proofs.Lowering.Alternatives
import ModuleTyping.Proofs.Typed.Coverage
import ModuleTyping.Proofs.Unification.Specialization
import ModuleTyping.Proofs.Inference.Candidates
import ModuleTyping.Proofs.Inference.RecordFields
import ModuleTyping.Proofs.Lowering.Callees
import ModuleTyping.Proofs.Lowering.Synonyms
import ModuleTyping.Proofs.SymbolTable.Functions
import ModuleTyping.Proofs.SymbolTable.Tags
import ModuleTyping.Proofs.Deliveries
import ModuleTyping.Proofs.Typed.Positions
import ModuleTyping.Proofs.Ty.Congruence
