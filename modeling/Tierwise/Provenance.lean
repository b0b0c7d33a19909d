import Tierwise.Graph
import Tierwise.Queue
import Tierwise.Walk

/-! # Where a node belongs

The search goes backwards to the nearest slice root.
-/

namespace Tierwise

/-- The search may go from `target` back to `source` over an edge of this type. The syntax decides first, then the
way a value takes through a parameter, then the type. -/
def Node.crossable (source target : Node) (type : EdgeType) : Bool :=
  let bySyntax := source.construct.bind fun s => target.construct.bind fun t => s.crossing? t target.isObjectEntry
  match bySyntax with
  | some b => b
  | none =>
    if source.isActual && target.isCall then source.flow? != some .outward
    else if target.isActual && source.isCall then true
    else type == .control || type == .member

/-- Where a search for a slice root ended. -/
structure Trail where
  /-- The last node that left the queue. -/
  last : Option NodeRef
  /-- The search gave up with nodes still waiting. -/
  limited : Bool
deriving DecidableEq, Repr, Inhabited

namespace Trail

/-- Takes nodes from the queue until one satisfies `stop`, none is left, or `limit` nodes were taken. A node is marked
when it leaves the queue, and marked nodes are not queued again. -/
def search (arcs : Arcs) (stop : NodeRef → Bool) :
    (limit : Nat) → (queue : Queue NodeRef) → (marked : List NodeRef) → (last : Option NodeRef) → Trail
  | 0, queue, _, last => ⟨last, queue.pop?.isSome⟩
  | limit + 1, queue, marked, last =>
    match queue.pop? with
    | none => ⟨last, false⟩
    | some (v, rest) =>
      if stop v then ⟨some v, false⟩
      else
        let marked := marked.insert v
        search arcs stop limit (rest.append ((arcs.next v).filter fun w => !marked.contains w)) marked (some v)

end Trail

namespace Graph

def crossable (g : Graph) (e : Edge) : Bool :=
  !e.isLoop &&
    match g.node? e.source, g.node? e.target with
    | some source, some target => source.crossable target e.type
    | _, _ => false

/-- Steps of the search, from the target of an edge to its source. -/
def provenanceArcs (g : Graph) : Arcs :=
  (g.edges.live.filter g.crossable).map fun e => (e.target, e.source)

def provenance (g : Graph) (n : NodeRef) : Trail :=
  let arcs := g.provenanceArcs
  Trail.search arcs (g.holds Node.isStop) g.worklistLimit (.ofList (arcs.next n)) [n] none

end Graph

namespace Trail

def sliceRoot? (g : Graph) (t : Trail) : Option NodeRef := t.last.filter (g.holds Node.isSlice)

def resolution (g : Graph) (t : Trail) : Resolution :=
  match t.last with
  | none => .unset
  | some v =>
    match g.sliceMark? v with
    | some mark => .declared mark.tag
    | none => .undetermined

def tier? (g : Graph) (t : Trail) : Option Tier := (t.last.bind g.sliceMark?).bind SliceMark.tier

end Trail

namespace Graph

/-- The nearest slice root above a node, which may be the node itself. -/
def sliceRootOf (g : Graph) (n : NodeRef) : Option NodeRef :=
  if g.holds Node.isSlice n then some n else (g.provenance n).sliceRoot? g

/-- What the nearest slice root says about a node. Memos play no part. -/
def classify (g : Graph) (n : NodeRef) : Resolution :=
  match g.sliceMark? n with
  | some mark => .declared mark.tag
  | none => (g.provenance n).resolution g

/-- The tier that the nearest slice root declares. Memos play no part. -/
def tierOf (g : Graph) (n : NodeRef) : Option Tier :=
  match g.sliceMark? n with
  | some mark => mark.tier
  | none => (g.provenance n).tier? g

end Graph

end Tierwise
