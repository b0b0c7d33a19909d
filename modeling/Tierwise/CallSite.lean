import Tierwise.Entry

/-! # Call sites

Arguments, what comes back, callees, and declarations that are read.
-/

namespace Tierwise

namespace Graph

def isActualWith (g : Graph) (flow : Flow) (n : NodeRef) : Bool :=
  g.holds (fun node => node.isActual && node.flow? == some flow) n

def actualsIn (g : Graph) (call : NodeRef) : List NodeRef :=
  (g.outNodes call).filter (g.isActualWith .inward)

/-- Values that come back: actual parameters that flow out, whatever the exits feed, and the actual parameters of catch
clauses. -/
def actualsOut (g : Graph) (call : NodeRef) : List NodeRef :=
  (g.outNodes call).filter (g.isActualWith .outward) ++
    (g.neighboursWhere .outgoing call Node.isExit).flatMap (fun exit => g.outNodes exit) ++
    (g.neighboursWhere .outgoing call fun n => n.isStatement && n.hasConstruct Construct.isCatch).flatMap
      fun clause => g.neighboursWhere .outgoing clause Node.isActual

/-- Entries that the call leads to, near or remote. -/
def callees (g : Graph) (call : NodeRef) : List NodeRef :=
  ((g.outEdges call).filter fun e => e.type.isCall && g.holds Node.isEntry e.target).map Edge.target

def setArity (g : Graph) (call : NodeRef) (arity : Arity) : Except GraphError Unit × Graph :=
  match g.expect call Node.isCall .call with
  | .error e => (.error e, g)
  | .ok _ => (.ok (), g.modifyNode call fun n => { n with kind := .call (some arity) })

/-- The node reads a declaration statement whose first declarator is the given one. -/
def readsDeclaration (g : Graph) (declarator : ConstructId) (n : NodeRef) : Bool :=
  (g.inNodes n (some .data)).any <| g.holds fun source =>
    source.isStatement && source.hasConstruct fun c =>
      (c.isVariableDeclaration || c.isVariableDeclarator) && c.declarations.head? == some declarator

end Graph

end Tierwise
