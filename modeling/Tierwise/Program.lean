import Tierwise.Slice

/-! # Questions about the whole program

Every node's tag, and the traffic of every slice.
-/

namespace Tierwise

structure Report where
  declared : Nat
  undetermined : Nat
  unset : Nat
  /-- Ids in order of creation. -/
  undeterminedNodes : List String
deriving DecidableEq, Repr, Inhabited

/-- Traffic of one slice over tier boundaries. -/
structure SliceSummary where
  slice : String
  tag : Tag
  tier : Option Tier
  nodes : Nat
  remoteDataOut : Nat
  remoteDataIn : Nat
  remoteCallsOut : Nat
  /-- Tags of what the slice reads. -/
  dataSources : List Tag
deriving DecidableEq, Repr, Inhabited

def Memo.ofFindings (r : Resolution) (tier : Option Tier) : Memo where
  tag := match r with
    | .declared tag => some tag
    | _ => none
  tier := some tier

def Report.ofResolutions (g : Graph) (found : List (NodeRef × Resolution)) : Report where
  declared := found.countP fun p => p.2.isDeclared
  undetermined := found.countP fun p => p.2 == .undetermined
  unset := found.countP fun p => p.2 == .unset
  undeterminedNodes := (found.filter fun p => p.2 == .undetermined).map fun p => g.idOf p.1

namespace Query

/-- Classifies a node afresh and replaces all that was remembered of it. Tag and tier are searched for one by one. -/
def reclassify (n : NodeRef) : Query (NodeRef × Resolution) := do
  let r ← classify n
  let t ← tierOf n
  remember n fun _ => Memo.ofFindings r t
  return (n, r)

def classifyProgram : Query Report := do
  let found ← each reclassify (← graph).nodeRefs
  return Report.ofResolutions (← graph) found

def summarize (root : NodeRef) (mark : SliceMark) : Query SliceSummary := do
  let nodes ← sliceNodes root
  let dataOut ← countEdges root .remoteData .outgoing
  let dataIn ← countEdges root .remoteData .incoming
  let callsOut ← countEdges root .remoteCall .outgoing
  let sources ← neighbourTags root .data .incoming
  return ⟨(← graph).idOf root, mark.tag, mark.tier, nodes.length, dataOut, dataIn, callsOut, sources⟩

/-- One summary for every slice root, in order of creation. -/
def summarizeSlices : Query (List SliceSummary) := do
  let g ← graph
  each (fun p => summarize p.1 p.2) (g.nodeRefs.filterMap fun n => (g.sliceMark? n).map fun mark => (n, mark))

end Query

end Tierwise
