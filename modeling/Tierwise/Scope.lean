import Tierwise.Query
import Tierwise.Walk

/-! # Enclosing scopes

Scopes are found above a node along control edges, and calls below it.
-/

namespace Tierwise

namespace Graph

/-- Steps along the edges of one type, from source to target. -/
def arcs (g : Graph) (type : EdgeType) : Arcs :=
  (g.edges.live.filter (·.type == type)).map fun e => (e.source, e.target)

/-- Steps against the edges of one type, from target to source. -/
def arcsBack (g : Graph) (type : EdgeType) : Arcs :=
  (g.edges.live.filter (·.type == type)).map fun e => (e.target, e.source)

/-- Nodes above `n` along control edges, nearest first. -/
def above (g : Graph) (n : NodeRef) : List NodeRef := (g.arcsBack .control).beyond n

/-- Nodes below `n` along control edges, nearest first. -/
def below (g : Graph) (n : NodeRef) : List NodeRef := (g.arcs .control).beyond n

def enclosingEntry (g : Graph) (n : NodeRef) : Option NodeRef := (g.above n).find? (g.holds Node.isEntry)

/-- The object entry that a node stands for: itself when it is flagged, else the one its syntax links to. -/
def objectEntryAt (g : Graph) (n : NodeRef) : Option NodeRef :=
  (g.node? n).bind fun node =>
    if node.isObjectRoot then some n else node.construct.bind Construct.objectEntry

/-- The nearest object entry above a node. A link is passed on as it is. Memos play no part. -/
def enclosingObjectEntry (g : Graph) (n : NodeRef) : Option NodeRef := (g.above n).findSome? g.objectEntryAt

def callsBelow (g : Graph) (n : NodeRef) : List NodeRef := (g.below n).filter (g.holds Node.isCall)

end Graph

/-- The enclosing object entry with memory. Only a hit is remembered. -/
def Query.enclosingObjectEntry (n : NodeRef) : Query (Option NodeRef) := do
  let g ← graph
  match (g.node? n).bind (·.memo.objectEntry) with
  | some o => return some o
  | none =>
    match g.enclosingObjectEntry n with
    | none => return none
    | some o =>
      remember n fun m => { m with objectEntry := some o }
      return some o

end Tierwise
