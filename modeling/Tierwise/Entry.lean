import Tierwise.Classification
import Tierwise.Graph.Build
import Tierwise.Scope

/-! # Function entries: parameters, body, exits and callers -/

namespace Tierwise

namespace Graph

/-- Fails unless the node passes a test of its kind. -/
def expect (g : Graph) (n : NodeRef) (p : Node → Bool) (expected : NodeLabel) : Except GraphError Unit :=
  match g.node? n with
  | none => .error (.unknownNode (g.idOf n))
  | some node => if p node then .ok () else .error (.kindMismatch node.id expected node.label)

def formalsIn (g : Graph) (entry : NodeRef) : List NodeRef :=
  g.neighboursWhere .outgoing entry fun n => n.isFormal && n.flow? == some .inward

/-- Formal parameters that hand values out, then whatever formal parameters the exception exits feed. -/
def formalsOut (g : Graph) (entry : NodeRef) : List NodeRef :=
  let direct := g.neighboursWhere .outgoing entry fun n => n.isFormal && n.flow? == some .outward
  let exits := (((g.node? entry).bind Node.entryState?).map EntryState.exceptionExits).getD []
  (direct ++ exits.flatMap fun exit => g.neighboursWhere .outgoing exit Node.isFormal).eraseDups

def hasBody (g : Graph) (entry : NodeRef) : Bool := (g.outNodes entry).any (g.holds Node.isStatement)

/-- A property statement leads over data to the function it is bound to. -/
def leadsToValue (g : Graph) (e : Edge) : Bool :=
  e.type == .data && g.holds (fun n => n.isStatement && n.hasConstruct Construct.isProperty) e.source &&
    g.holds Node.isEntry e.target

/-- Steps inside a body: control first, then members, then the values of properties. -/
def bodyArcs (g : Graph) : Arcs :=
  let live := g.edges.live.filter fun e => g.holds Node.isBodyNode e.target
  (live.filter (·.type == .control) ++ live.filter (·.type == .member) ++ live.filter g.leadsToValue).map fun e =>
    (e.source, e.target)

/-- Statements, calls, object entries and nested entries under an entry. The first step goes along control. -/
def body (g : Graph) (entry : NodeRef) : List NodeRef :=
  g.bodyArcs.order [entry] ((g.outNodes entry (some .control)).filter (g.holds Node.isBodyNode))

/-- Calls of an entry, remote ones last and only if asked for. -/
def callers (g : Graph) (entry : NodeRef) (remote : Bool) : List NodeRef :=
  g.inNodes entry (some .call) ++ if remote then g.inNodes entry (some .remoteCall) else []

/-- An exit is registered once. The exit is looked at before the entry. -/
def addExceptionExit (g : Graph) (entry exit : NodeRef) : Except GraphError Unit × Graph :=
  match g.expect exit Node.isExit .exit, g.expect entry (·.entryState?.isSome) .entry with
  | .error e, _ => (.error e, g)
  | .ok _, .error e => (.error e, g)
  | .ok _, .ok _ =>
    (.ok (), g.modifyNode entry (Node.modifyEntry fun s =>
      if s.exceptionExits.contains exit then s else { s with exceptionExits := s.exceptionExits ++ [exit] }))

def setIsConstructor (g : Graph) (entry : NodeRef) (flag : Bool) : Except GraphError Unit × Graph :=
  match g.expect entry (·.entryState?.isSome) .entry with
  | .error e => (.error e, g)
  | .ok _ => (.ok (), g.modifyNode entry (Node.modifyEntry fun s => { s with isConstructor := flag }))

end Graph

/-- A call from the given tier is counted. A call from elsewhere only shows that the entry is called. -/
def EntryState.recordCall (tier : Option Tier) (s : EntryState) : EntryState :=
  match tier with
  | some .server => { s with isCalled := true, serverTally := s.serverTally + 1 }
  | some .client => { s with isCalled := true, clientTally := s.clientTally + 1 }
  | _ => { s with isCalled := true }

namespace Query

/-- Records a call of an entry. The caller's tier, which is remembered on the caller, picks the counter. -/
def addCall (entry call : NodeRef) : Query (Except GraphError Unit) := do
  match (← graph).expect entry (·.entryState?.isSome) .entry with
  | .error e => return .error e
  | .ok _ =>
    let t ← tier call
    edit fun g => (.ok (), g.modifyNode entry (Node.modifyEntry (EntryState.recordCall t)))

/-- Callers on one tier, over calls of both kinds. -/
def countCallers (entry : NodeRef) (tier : Tier) : Query Nat := do
  let tiers ← each Query.tier ((← graph).callers entry true)
  return tiers.count (some tier)

def serverCalls (entry : NodeRef) : Query Nat := countCallers entry .server

def clientCalls (entry : NodeRef) : Query Nat := countCallers entry .client

end Query

end Tierwise
