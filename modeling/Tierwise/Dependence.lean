import Tierwise.CallChain

/-! # Nodes that depend on a value

The closure goes over data edges, through calls and parameters.
-/

namespace Tierwise

structure Closure where
  origin : NodeRef
  /-- Nodes in the order in which they were found. The origin is never one of them. -/
  members : List NodeRef := []
  /-- Edges still to follow. -/
  queue : List Edge := []
  /-- Indices of edges that were ever queued. -/
  queued : List Nat := []
  /-- Calls that are members because the climb above them failed. -/
  kept : List NodeRef := []
  /-- Edges were left in the queue. -/
  limited : Bool := false
deriving Repr, Inhabited

namespace Closure

/-- The origin counts as known. -/
def knows (c : Closure) (n : NodeRef) : Bool := n == c.origin || c.members.contains n

def add (c : Closure) (n : NodeRef) : Closure :=
  if c.knows n then c else { c with members := c.members ++ [n] }

/-- Queues every edge that was not queued before. -/
def push (c : Closure) : List Edge → Closure
  | [] => c
  | e :: rest =>
    if c.queued.contains e.index then c.push rest
    else push { c with queue := c.queue ++ [e], queued := e.index :: c.queued } rest

/-- Adds a node that is not known and goes on with its data edges. -/
def follow (g : Graph) (c : Closure) (n : NodeRef) : Closure :=
  if c.knows n then c else (c.add n).push (g.outEdges n (some .data))

/-- An actual parameter leads on only where its call stands in an argument itself: to what the outermost call feeds and
to what controls the call. -/
def throughActual (g : Graph) (c : Closure) (parameter : NodeRef) : Closure :=
  match (g.inNodes parameter (some .control)).head? with
  | none => c
  | some call =>
    if (g.argumentSlots call).isEmpty then c
    else
      match g.outermostCall call with
      | .ok up => (c.push (g.outEdges up (some .data))).push (g.inEdges call (some .control))
      | .error _ => { c.add call with kept := c.kept ++ [call] }

/-- A call stands for the node that invokes it, unless that is a function entry or known already. -/
def throughCall (g : Graph) (c : Closure) (call : NodeRef) : Closure :=
  match (g.inNodes call (some .control)).head? with
  | none => c.add call
  | some up =>
    if g.holds Node.isEntry up || c.knows up then c.add call else c.follow g up

/-- Follows one edge. A formal parameter is entered only from an actual one. -/
def step (g : Graph) (keepActuals : Bool) (c : Closure) (e : Edge) : Closure :=
  if g.holds Node.isActual e.target then
    if keepActuals then c.add e.target else c.throughActual g e.target
  else if g.holds Node.isCall e.target then
    c.throughCall g e.target
  else if g.holds Node.isFormal e.target then
    if g.holds Node.isActual e.source then c.follow g e.target else c
  else
    c.follow g e.target

def run (g : Graph) (keepActuals : Bool) : (limit : Nat) → Closure → Closure
  | 0, c => { c with limited := !c.queue.isEmpty }
  | limit + 1, c =>
    match c.queue with
    | [] => c
    | e :: rest => run g keepActuals limit (step g keepActuals { c with queue := rest } e)

/-- The closure of `origin` before any edge is followed. Remote data counts only at the origin. -/
def start (g : Graph) (origin : NodeRef) (crossTier : Bool) : Closure :=
  push { origin } ((g.outEdges origin).filter fun e => e.type == .data || (crossTier && e.type == .remoteData))

end Closure

/-- The nodes that depend on `origin`. Actual parameters are stepped over unless they are to be kept. -/
def Graph.dependents (g : Graph) (origin : NodeRef) (crossTier keepActuals : Bool) : Closure :=
  Closure.run g keepActuals g.worklistLimit (Closure.start g origin crossTier)

/-- The nodes that depend on `origin`, with warnings for calls that could not be left and for a closure cut off. -/
def Query.dependents (origin : NodeRef) (crossTier keepActuals : Bool) : Query (List NodeRef) := do
  let g ← graph
  let c := g.dependents origin crossTier keepActuals
  let _ ← each (fun call => warn (.callKept (.callChain (g.idOf call) g.callChainLimit) (g.idOf call))) c.kept
  warnIf c.limited (.closureLimit (g.idOf origin) g.worklistLimit)
  return c.members

end Tierwise
