import Tierwise.Graph

/-! # Building a graph

New nodes, flags, and edges added and removed.
-/

namespace Tierwise.Graph

/-- A node with the next creation number. Its id is entered without a look at the ids in use. -/
def addNode (g : Graph) (kind : NodeKind) (construct : Option Construct := none) : NodeRef × Graph :=
  (g.nodes.size, { g with
    nodes := g.nodes.push { serial := g.serial + 1, kind, construct }
    ids := g.ids.insert (kind.id (g.serial + 1)) g.nodes.size
    serial := g.serial + 1 })

theorem node?_addNode (g : Graph) (kind : NodeKind) (construct : Option Construct) :
    (g.addNode kind construct).2.node? (g.addNode kind construct).1 =
      some { serial := g.serial + 1, kind, construct } := by
  simp [addNode, node?]

theorem node?_addNode_of_lt {g : Graph} {n : NodeRef} (h : n < g.nodes.size) (kind : NodeKind)
    (construct : Option Construct) : (g.addNode kind construct).2.node? n = g.node? n := by
  simp [addNode, node?, Array.getElem?_push, Nat.ne_of_lt h]

def addEntry (g : Graph) (construct : Option Construct) : NodeRef × Graph := g.addNode (.entry {}) construct

def addObjectEntry (g : Graph) (construct : Option Construct) : NodeRef × Graph :=
  g.addNode (.objectEntry {}) construct

def addCallNode (g : Graph) (construct : Option Construct) : NodeRef × Graph := g.addNode (.call none) construct

def addStatement (g : Graph) (construct : Option Construct) : NodeRef × Graph := g.addNode .statement construct

def addFormal (g : Graph) (name : String) (flow : Flow) : NodeRef × Graph := g.addNode (.formal flow name)

def addActual (g : Graph) (flow : Flow) (construct : Option Construct) (value : Option String) : NodeRef × Graph :=
  g.addNode (.actual flow value) construct

def addExit (g : Graph) (construct : Option Construct) (exceptional : Bool) : NodeRef × Graph :=
  g.addNode (.exit exceptional) construct

/-- A slice root, if no other is spelled the same. The creation number is used up either way. -/
def addSlice (g : Graph) (mark : SliceMark) : Except GraphError NodeRef × Graph :=
  let id := "C" ++ mark.tag.text
  if (g.find? id).isSome then
    (.error (.duplicateNode id), { g with serial := g.serial + 1 })
  else
    let (n, g) := g.addNode (.slice mark)
    (.ok n, g)

def addSliceRoot (g : Graph) (tag : Tag) (tier : Option Tier) : Except GraphError NodeRef × Graph :=
  g.addSlice ⟨tag, tier, false⟩

/-- The root of a whole tier, whose tag and tier are the same. -/
def addTierRoot (g : Graph) (tier : Tier) : Except GraphError NodeRef × Graph :=
  g.addSlice ⟨.tier tier, some tier, true⟩

/-- The root of a tier, made when first asked for. -/
def ensureTierRoot (g : Graph) (tier : Tier) : Except GraphError NodeRef × Graph :=
  match g.sliceRoot? (.tier tier) with
  | some n => (.ok n, g)
  | none => g.addTierRoot tier

def markRoot (g : Graph) (n : NodeRef) : Graph := g.modifyNode n fun node => { node with isRoot := true }

def markObjectRoot (g : Graph) (n : NodeRef) : Graph :=
  g.modifyNode n fun node => { node with isObjectRoot := true }

def addEdge (g : Graph) (source target : NodeRef) (type : EdgeType) (label : Option String := none) : Nat × Graph :=
  (g.edges.nextIndex, { g with edges := g.edges.add source target type label })

def addEdgesOut (g : Graph) (source : NodeRef) : List (NodeRef × EdgeType × Option String) → List Nat × Graph
  | [] => ([], g)
  | (target, type, label) :: rest =>
    let (i, g) := g.addEdge source target type label
    let (is, g) := g.addEdgesOut source rest
    (i :: is, g)

/-- Edges into one node, in the order given and without labels. -/
def addEdgesIn (g : Graph) (target : NodeRef) : List (NodeRef × EdgeType) → List Nat × Graph
  | [] => ([], g)
  | (source, type) :: rest =>
    let (i, g) := g.addEdge source target type
    let (is, g) := g.addEdgesIn target rest
    (i :: is, g)

/-- Drops the edges between two nodes and tells how many there were. -/
def removeEdges (g : Graph) (source target : NodeRef) (type : Option EdgeType) : Nat × Graph :=
  ((g.edges.between source target type).length, { g with edges := g.edges.remove source target type })

end Tierwise.Graph
