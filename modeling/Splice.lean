import Splice.Code.Listing
import Splice.Emulation.Run
import Splice.Emulation.Script
import Splice.Weaving.Weave
import Splice.Proofs.Code.WellFormed
import Splice.Proofs.Emulation.Path
import Splice.Proofs.Emulation.Enclosure
import Splice.Proofs.Emulation.Execution
import Splice.Proofs.Emulation.Contact
import Splice.Proofs.Emulation.Completion
import Splice.Proofs.Emulation.Visits
import Splice.Proofs.Weaving.Members
import Splice.Proofs.Weaving.Guarded
import Splice.Proofs.Weaving.Measured
import Splice.Proofs.Weaving.Transparency
import Splice.Proofs.Weaving.Handling
import Splice.Proofs.Weaving.Bracketing
import Splice.Proofs.Weaving.Sequence
import Splice.Proofs.Weaving.Refusal
import Splice.Proofs.Emulation.Resumption
import Splice.Proofs.Binding.LookupOrder
import Splice.Proofs.Binding.ReadBack
import Splice.Proofs.Binding.Caching
import Splice.Proofs.Binding.Naming
import Splice.Proofs.Binding.Rounds
import Splice.Proofs.Binding.Bases
import Splice.Proofs.Binding.Hierarchy
import Splice.Proofs.Binding.Methods
import Splice.Proofs.Weaving.Eligibility
import Splice.Proofs.Binding.Spelling
import Splice.Proofs.Weaving.Accounting
import Splice.Proofs.Weaving.Independence
import Splice.Proofs.Binding.Blanks
import Splice.Proofs.Weaving.Relevance
import Splice.Proofs.Binding.SelfReference
import Splice.Proofs.Emulation.Dispatch
import Splice.Proofs.Emulation.Leaving
import Splice.Proofs.Weaving.Routing
import Splice.Proofs.Binding.Strictness
import Splice.Proofs.Binding.Importing
import Splice.Proofs.Binding.Matching
import Splice.Proofs.Binding.DeclarationOrder
import Splice.Proofs.Code.Laminarity
import Splice.Proofs.Code.Editing
import Splice.Proofs.Code.Labels
import Splice.Proofs.Binding.Dependencies
import Splice.Proofs.Emulation.Conduct
import Splice.Proofs.Emulation.Budget
import Splice.Proofs.Emulation.History
import Splice.Proofs.Emulation.Rethrowing
import Splice.Proofs.Emulation.FaultHandlers
import Splice.Proofs.Emulation.Depth
import Splice.Proofs.Weaving.Headroom
import Splice.Proofs.Emulation.Derivation
import Splice.Proofs.Types.Dialects
