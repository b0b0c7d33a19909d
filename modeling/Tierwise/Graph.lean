import Tierwise.Edge.Store
import Tierwise.Graph.Error
import Tierwise.Graph.IdTable
import Tierwise.Settings

/-! # The dependence graph

Nodes in order of creation, live edges, and what a node sees of them.
-/

namespace Tierwise

structure Graph where
  /-- A node's place is its name inside the graph. Nodes are never removed. -/
  nodes : Array Node := #[]
  ids : IdTable := {}
  edges : EdgeStore := {}
  /-- The creation number given out last. -/
  serial : Nat := 0
  settings : Settings := Settings.standard
deriving DecidableEq, Repr, Inhabited

namespace Graph

def empty : Graph := {}

/-- Settings that fail their check are refused. -/
def withSettings (s : Settings) : Except GraphError Graph :=
  match s.check with
  | .error e => .error (.settings e)
  | .ok _ => .ok { settings := s }

/-- Refused settings leave the graph as it was. -/
def setSettings (g : Graph) (s : Settings) : Except GraphError Unit × Graph :=
  match s.check with
  | .error e => (.error (.settings e), g)
  | .ok _ => (.ok (), { g with settings := s })

def worklistLimit (g : Graph) : Nat := g.settings.worklistLimit.toNat

def callChainLimit (g : Graph) : Nat := g.settings.callChainLimit.toNat

def node? (g : Graph) (n : NodeRef) : Option Node := g.nodes[n]?

def serialOf (g : Graph) (n : NodeRef) : Nat := ((g.node? n).map Node.serial).getD 0

def nodeRefs (g : Graph) : List NodeRef :=
  (List.range g.nodes.size).mergeSort fun m n => g.serialOf m ≤ g.serialOf n

def nodeCount (g : Graph) : Nat := g.nodes.size

def edgeCount (g : Graph) : Nat := g.edges.entries.length

def find? (g : Graph) (id : String) : Option NodeRef := g.ids.find? id

def require (g : Graph) (id : String) : Except GraphError NodeRef :=
  match g.find? id with
  | some n => .ok n
  | none => .error (.unknownNode id)

/-- A question about a node; of a node that is not there nothing holds. -/
def holds (g : Graph) (p : Node → Bool) (n : NodeRef) : Bool := (g.node? n).any p

theorem holds_iff {g : Graph} {p : Node → Bool} {n : NodeRef} :
    g.holds p n = true ↔ ∃ node, g.node? n = some node ∧ p node = true := by
  simp [holds, Option.any_eq_true]

def idOf (g : Graph) (n : NodeRef) : String := ((g.node? n).map Node.id).getD ""

def sameNode (g : Graph) (a b : NodeRef) : Bool := g.idOf a == g.idOf b

def sliceMark? (g : Graph) (n : NodeRef) : Option SliceMark := (g.node? n).bind Node.sliceMark?

/-- The slice root whose id is spelled with this tag. -/
def sliceRoot? (g : Graph) (tag : Tag) : Option NodeRef :=
  (g.find? ("C" ++ tag.text)).filter (g.holds Node.isSlice)

def modifyNode (g : Graph) (n : NodeRef) (f : Node → Node) : Graph :=
  { g with nodes := g.nodes.modify n f }

def modifyMemo (g : Graph) (n : NodeRef) (f : Memo → Memo) : Graph := g.modifyNode n (Node.modifyMemo f)

theorem node?_modifyNode (g : Graph) (n m : NodeRef) (f : Node → Node) :
    (g.modifyNode n f).node? m = if n = m then (g.node? m).map f else g.node? m := by
  simp [node?, modifyNode, Array.getElem?_modify]

@[simp] theorem edges_modifyNode (g : Graph) (n : NodeRef) (f : Node → Node) :
    (g.modifyNode n f).edges = g.edges := rfl

/-- Edges that `n` sees on `side`, oldest first. -/
def edgesAt (g : Graph) (side : Side) (n : NodeRef) (type : Option EdgeType := none) : List Edge :=
  g.edges.around side n type

def inEdges (g : Graph) (n : NodeRef) (type : Option EdgeType := none) : List Edge :=
  g.edgesAt .incoming n type

def outEdges (g : Graph) (n : NodeRef) (type : Option EdgeType := none) : List Edge :=
  g.edgesAt .outgoing n type

/-- The other ends of the edges on `side`, one for each edge. -/
def neighbours (g : Graph) (side : Side) (n : NodeRef) (type : Option EdgeType := none) : List NodeRef :=
  (g.edgesAt side n type).map (Edge.far side)

def inNodes (g : Graph) (n : NodeRef) (type : Option EdgeType := none) : List NodeRef :=
  g.neighbours .incoming n type

def outNodes (g : Graph) (n : NodeRef) (type : Option EdgeType := none) : List NodeRef :=
  g.neighbours .outgoing n type

/-- The other ends on `side`, over edges of any type, of which `p` holds. -/
def neighboursWhere (g : Graph) (side : Side) (n : NodeRef) (p : Node → Bool) : List NodeRef :=
  (g.neighbours side n).filter (g.holds p)

def edge? (g : Graph) (index : Nat) : Option Edge := g.edges.get? index

def edgeLabel? (g : Graph) (index : Nat) : Option String := (g.edge? index).bind Edge.label

def forget (g : Graph) (n : NodeRef) : Graph := g.modifyMemo n fun _ => {}

def forgetAll (g : Graph) : Graph := { g with nodes := g.nodes.map (Node.modifyMemo fun _ => {}) }

end Graph

end Tierwise
