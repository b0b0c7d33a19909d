import Tierwise.Classification
import Tierwise.Scope

/-! # Slices

The nodes below a root along control edges, and counts over their edges.
-/

namespace Tierwise

structure SliceWalk where
  nodes : List NodeRef
  /-- Nodes were left when the limit was hit. -/
  limited : Bool
deriving DecidableEq, Repr, Inhabited

/-- Lists at most `limit` nodes. A node counts as seen once it is queued. -/
def SliceWalk.run (arcs : Arcs) : (limit : Nat) → (seen queue : List NodeRef) → SliceWalk
  | 0, _, queue => ⟨[], !queue.isEmpty⟩
  | limit + 1, seen, queue =>
    match queue with
    | [] => ⟨[], false⟩
    | v :: rest =>
      let fresh := ((arcs.next v).filter fun w => !seen.contains w).eraseDups
      let walk := run arcs limit (seen ++ fresh) (rest ++ fresh)
      ⟨v :: walk.nodes, walk.limited⟩

namespace Graph

/-- The root is listed only if a cycle leads back to it. -/
def sliceWalk (g : Graph) (root : NodeRef) : SliceWalk :=
  let arcs := g.arcs .control
  let first := (arcs.next root).eraseDups
  SliceWalk.run arcs g.worklistLimit first first

def sliceNodes (g : Graph) (root : NodeRef) : List NodeRef := (g.sliceWalk root).nodes

/-- Edges of one type that the nodes of a slice see on one side. -/
def countEdges (g : Graph) (root : NodeRef) (type : EdgeType) (side : Side) : Nat :=
  ((g.sliceNodes root).flatMap fun n => g.edgesAt side n (some type)).length

end Graph

namespace Query

/-- The nodes of a slice, with a warning when the walk was cut off. -/
def sliceNodes (root : NodeRef) : Query (List NodeRef) := do
  let g ← graph
  let walk := g.sliceWalk root
  warnIf walk.limited (.sliceLimit (g.idOf root) g.worklistLimit)
  return walk.nodes

@[simp] theorem value_sliceNodes (root : NodeRef) (g : Graph) : (sliceNodes root g).value = g.sliceNodes root := rfl

@[simp] theorem graph_sliceNodes (root : NodeRef) (g : Graph) : (sliceNodes root g).graph = g := by
  simp [sliceNodes]

def sliceNodesWhere (root : NodeRef) (test : NodeTest) : Query (List NodeRef) := do
  let g ← graph
  return (← sliceNodes root).filter (g.holds test.holds)

theorem value_sliceNodesWhere (root : NodeRef) (test : NodeTest) (g : Graph) :
    (sliceNodesWhere root test g).value = (g.sliceNodes root).filter (g.holds test.holds) := rfl

/-- The other ends of the edges of one type that the nodes of a slice see on one side, one for each edge. -/
def sliceNeighbours (root : NodeRef) (type : EdgeType) (side : Side) : Query (List NodeRef) := do
  let g ← graph
  return (← sliceNodes root).flatMap fun n => g.neighbours side n (some type)

def countEdges (root : NodeRef) (type : EdgeType) (side : Side) : Query Nat := do
  return (← sliceNeighbours root type side).length

theorem value_countEdges (root : NodeRef) (type : EdgeType) (side : Side) (g : Graph) :
    (countEdges root type side g).value = g.countEdges root type side := by
  simp [countEdges, sliceNeighbours, Graph.countEdges, Graph.neighbours, List.length_flatMap]

/-- Counts the neighbours that carry a tag, which are remembered on the way. -/
def countTagged (root : NodeRef) (type : EdgeType) (tag : Tag) (side : Side) : Query Nat := do
  let tags ← each (Query.tag ·) (← sliceNeighbours root type side)
  return tags.count (some tag)

/-- Counts the neighbours by any question about the slice root above them, if there is one. -/
def countBySliceRoot (root : NodeRef) (type : EdgeType) (p : Option Node → Bool) (side : Side) : Query Nat := do
  let g ← graph
  let roots ← each sliceRootOf (← sliceNeighbours root type side)
  return roots.countP fun r => p (r.bind g.node?)

def countBySlice (root : NodeRef) (type : EdgeType) (test : SliceTest) (side : Side) : Query Nat :=
  countBySliceRoot root type test.holds side

def countByNode (root : NodeRef) (type : EdgeType) (test : NodeTest) (side : Side) : Query Nat := do
  let g ← graph
  return (← sliceNeighbours root type side).countP (g.holds test.holds)

/-- The tags of the neighbours, each once, in the order in which they turn up. -/
def neighbourTags (root : NodeRef) (type : EdgeType) (side : Side) : Query (List Tag) := do
  let tags ← each (Query.tag ·) (← sliceNeighbours root type side)
  return (tags.filterMap fun t => t).eraseDups

end Query

end Tierwise
