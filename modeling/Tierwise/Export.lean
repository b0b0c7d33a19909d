import Tierwise.Graph
import Tierwise.Text.Json

/-! # The graph seen from outside

Counts, records of nodes and edges, their text, and a check of the graph itself.
-/

namespace Tierwise

structure Stats where
  nodes : Nat
  edges : Nat
  control : Nat
  data : Nat
  call : Nat
  /-- Remote calls and remote data. -/
  remote : Nat
  /-- Members and prototypes. -/
  object : Nat
deriving DecidableEq, Repr, Inhabited

structure NodeRecord where
  id : String
  serial : Nat
  label : NodeLabel
  tag : Option Tag
  tier : Option Tier
deriving DecidableEq, Repr, Inhabited

structure EdgeRecord where
  source : String
  target : String
  type : EdgeType
  label : Option String
deriving DecidableEq, Repr, Inhabited

structure Snapshot where
  nodes : List NodeRecord
  edges : List EdgeRecord
deriving DecidableEq, Repr, Inhabited

namespace NodeRecord

def ofNode (n : Node) : NodeRecord := ⟨n.id, n.serial, n.label, n.knownTag?, n.knownTier?⟩

/-- What is not known is left out. -/
def fields (r : NodeRecord) : List (String × String) :=
  [("id", Text.Json.string r.id), ("cnt", toString r.serial), ("kind", Text.Json.string r.label.text)] ++
    (r.tag.map fun t => ("ftype", Text.Json.string t.text)).toList ++
    (r.tier.map fun t => ("tier", Text.Json.string t.name)).toList

end NodeRecord

namespace EdgeRecord

def ofEdge (g : Graph) (e : Edge) : EdgeRecord := ⟨g.idOf e.source, g.idOf e.target, e.type, e.label⟩

def fields (r : EdgeRecord) : List (String × String) :=
  [("from", Text.Json.string r.source), ("to", Text.Json.string r.target),
    ("edge_type", Text.Json.string r.type.name)] ++
    (r.label.map fun l => ("label", Text.Json.string l)).toList

end EdgeRecord

def Snapshot.json (x : Snapshot) : String :=
  Text.Json.object 0 [
    ("nodes", Text.Json.array 1 (x.nodes.map fun n => Text.Json.object 2 n.fields)),
    ("edges", Text.Json.array 1 (x.edges.map fun e => Text.Json.object 2 e.fields))]

namespace Graph

def countType (g : Graph) (types : List EdgeType) : Nat := g.edges.live.countP fun e => types.contains e.type

def stats (g : Graph) : Stats where
  nodes := g.nodeCount
  edges := g.edgeCount
  control := g.countType [.control]
  data := g.countType [.data]
  call := g.countType [.call]
  remote := g.countType [.remoteCall, .remoteData]
  object := g.countType [.member, .prototype]

/-- Nodes in order of creation, and edges by source, those of one source oldest first. -/
def snapshot (g : Graph) : Snapshot where
  nodes := (g.nodeRefs.filterMap g.node?).map NodeRecord.ofNode
  edges := (g.nodeRefs.flatMap fun n => g.outEdges n).map (EdgeRecord.ofEdge g)

def exitFault? (g : Graph) (node : Node) (exit : NodeRef) : Option GraphError :=
  match g.node? exit with
  | none => some (.invariant (node.id ++ " registers a missing exception exit"))
  | some other => if other.isExit then none else some (.kindMismatch other.id .exit other.label)

def memberFault? (g : Graph) (node : Node) (member : String × NodeRef) : Option GraphError :=
  if (g.node? member.2).isSome then none
  else some (.invariant (node.id ++ " member '" ++ member.1 ++ "' points to a missing node"))

/-- What is wrong with a node: its id finds another, an exit is no exit, or a member is missing. -/
def fault? (g : Graph) (n : NodeRef) : Option GraphError :=
  match g.node? n with
  | none => none
  | some node =>
    if g.find? node.id != some n then some (.duplicateNode node.id)
    else node.exceptionExits.findSome? (g.exitFault? node) <|> node.members.findSome? (g.memberFault? node)

def edgeFault? (g : Graph) (index : Nat) : Option GraphError :=
  if (g.edge? index).isSome then none
  else some (.invariant ("edge EdgeIndex(" ++ toString index ++ ") has no endpoints"))

/-- Checks the rules of construction: the number of ids, then node by node, then edge by edge. -/
def verify (g : Graph) : Except GraphError Unit :=
  if g.ids.size ≠ g.nodeCount then
    .error (.invariant (toString g.ids.size ++ " ids for " ++ toString g.nodeCount ++ " nodes"))
  else
    match (List.range g.nodes.size).findSome? g.fault? <|>
        (g.edges.entries.map (·.2.index)).findSome? g.edgeFault? with
    | some e => .error e
    | none => .ok ()

end Graph

end Tierwise
