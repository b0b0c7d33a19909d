import Tierwise.Entry

/-! # Members of object entries

They are found along the chain of prototypes.
-/

namespace Tierwise

inductive Lookup where
  | found (member : NodeRef)
  | missing
  /-- The chain came back to this node. -/
  | cycle (node : NodeRef)
deriving DecidableEq, Repr, Inhabited

def Lookup.member? : Lookup → Option NodeRef
  | found m => some m
  | _ => none

namespace Graph

def ownMember? (g : Graph) (n : NodeRef) (name : String) : Option NodeRef :=
  ((g.node? n).bind Node.objectState?).bind (·.member? name)

/-- The prototype of a node is at the end of its oldest prototype edge. -/
def prototype? (g : Graph) (n : NodeRef) : Option NodeRef := ((g.arcs .prototype).next n).head?

theorem length_unseen_prototype {g : Graph} {seen : List NodeRef} {n p : NodeRef} (hn : n ∉ seen)
    (hp : g.prototype? n = some p) :
    ((g.arcs .prototype).unseen (n :: seen)).length < ((g.arcs .prototype).unseen seen).length := by
  have h := (g.arcs .prototype).length_unseen_cons hn
  have : 0 < ((g.arcs .prototype).next n).length := by
    unfold prototype? at hp
    cases hl : (g.arcs .prototype).next n with
    | nil => simp [hl] at hp
    | cons => simp
  omega

/-- Looks a name up in a node and then in its prototypes. -/
def lookupFrom (g : Graph) (name : String) (seen : List NodeRef) (n : NodeRef) : Lookup :=
  if n ∈ seen then .cycle n
  else
    match g.ownMember? n name with
    | some m => .found m
    | none =>
      match _hp : g.prototype? n with
      | none => .missing
      | some p => g.lookupFrom name (n :: seen) p
termination_by ((g.arcs .prototype).unseen seen).length
decreasing_by exact length_unseen_prototype ‹_› _hp

def lookup (g : Graph) (object : NodeRef) (name : String) : Lookup := g.lookupFrom name [] object

/-- The member of an object, its own or inherited. -/
def member? (g : Graph) (object : NodeRef) (name : String) : Option NodeRef := (g.lookup object name).member?

/-- Binds a name in an object and draws the edge to the member. -/
def addMember (g : Graph) (object : NodeRef) (name : String) (member : NodeRef) : Except GraphError Unit × Graph :=
  match g.expect object Node.isObjectEntry .objectEntry with
  | .error e => (.error e, g)
  | .ok _ =>
    (.ok (), (g.addEdge object member .member).2.modifyNode object (Node.modifyObject (·.bind name member)))

def setConstructorNode (g : Graph) (object node : NodeRef) : Except GraphError Unit × Graph :=
  match g.expect object Node.isObjectEntry .objectEntry with
  | .error e => (.error e, g)
  | .ok _ =>
    (.ok (), g.modifyNode object (Node.modifyObject fun s => { s with constructorNode := some node }))

end Graph

/-- The member of an object, with a warning when the prototypes run in a circle. -/
def Query.member? (object : NodeRef) (name : String) : Query (Option NodeRef) := do
  let g ← graph
  match g.lookup object name with
  | .cycle n => do
    warn (.prototypeCycle (g.idOf n) name)
    return none
  | l => return l.member?

theorem Query.value_member? (object : NodeRef) (name : String) (g : Graph) :
    (Query.member? object name g).value = g.member? object name := by
  cases h : g.lookup object name <;> simp [Query.member?, Graph.member?, Lookup.member?, h]

end Tierwise
