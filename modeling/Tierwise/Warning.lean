import Tierwise.Graph.Error

/-! # Warnings

What a query has to say beside its answer. Nodes are named by their ids.
-/

namespace Tierwise

inductive Warning where
  | provenanceLimit (start : String) (limit : Nat)
  | noSliceRoot (node : String)
  | closureLimit (start : String) (limit : Nat)
  /-- A call stays in the closure because the climb above it failed. -/
  | callKept (cause : GraphError) (call : String)
  | reachLimit (start : String) (limit : Nat)
  | sliceLimit (start : String) (limit : Nat)
  | prototypeCycle (node name : String)
  | anchorLimit (start : String) (limit : Nat)
deriving DecidableEq, Repr, Inhabited

namespace Warning

def message : Warning → String
  | provenanceLimit start limit => s!"provenance search from {start} hit worklist limit {limit}"
  | noSliceRoot node => s!"no slice root above {node}, defaulting to shared"
  | closureLimit start limit => s!"dependence closure from {start} hit worklist limit {limit}"
  | callKept cause call => cause.message ++ "; keeping " ++ call
  | reachLimit start limit => s!"reachability from {start} hit worklist limit {limit}"
  | sliceLimit start limit => s!"slice walk from {start} hit worklist limit {limit}"
  | prototypeCycle node name => s!"prototype cycle at {node} looking up '{name}'"
  | anchorLimit start limit => s!"statement lookup from {start} exceeded {limit} levels"

/-- Every message once, in the order of the texts. -/
def report (warnings : List Warning) : List String :=
  (warnings.map message).eraseDups.mergeSort (· ≤ ·)

end Warning

end Tierwise
