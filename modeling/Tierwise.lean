import Tierwise.CallSite
import Tierwise.Dependence
import Tierwise.Export
import Tierwise.Member
import Tierwise.Node.Describe
import Tierwise.Program
import Tierwise.Proofs.Forget
import Tierwise.Proofs.Memo
import Tierwise.Proofs.NearestRoot
import Tierwise.Reach
import Tierwise.Session
import Tierwise.Settings.File
import Tierwise.Proofs.Edge.Order
import Tierwise.Proofs.Edit
import Tierwise.Proofs.Edge.Ledger
import Tierwise.Proofs.Closure
import Tierwise.Proofs.Closure.CrossTier
import Tierwise.Proofs.Batch
import Tierwise.Proofs.Construction
import Tierwise.Proofs.Demand
import Tierwise.Proofs.Ids
import Tierwise.Proofs.Recheck
import Tierwise.Proofs.TagLookup
import Tierwise.Proofs.Slice.Membership
import Tierwise.Proofs.Reading
import Tierwise.Proofs.Slice.Traffic
import Tierwise.Proofs.Verdict
import Tierwise.Proofs.Sharing
import Tierwise.Proofs.Refusal
import Tierwise.Proofs.Slice.Enumeration
import Tierwise.Proofs.Limit
import Tierwise.Proofs.Yaml.Scan
import Tierwise.Proofs.Yaml.Page
import Tierwise.Proofs.Settings.RoundTrip
import Tierwise.Proofs.Reach
import Tierwise.Proofs.Anchors
import Tierwise.Proofs.Scope
import Tierwise.Proofs.Slice.Calls
import Tierwise.Proofs.Body
import Tierwise.Proofs.Anchors.Levels
import Tierwise.Proofs.Delegation
import Tierwise.Proofs.Alteration
import Tierwise.Proofs.Bindings
import Tierwise.Proofs.CallTally
import Tierwise.Proofs.Export
import Tierwise.Proofs.Unguarded
