import Tierwise.Construct

/-! # Typed edges between nodes -/

namespace Tierwise

inductive EdgeType where
  | control
  | data
  | call
  | remoteCall
  | remoteData
  | member
  | prototype
deriving DecidableEq, Repr, Inhabited

namespace EdgeType

def all : List EdgeType := [control, data, call, remoteCall, remoteData, member, prototype]

def name : EdgeType → String
  | control => "CONTROL"
  | data => "DATA"
  | call => "CALL"
  | remoteCall => "REMOTEC"
  | remoteData => "REMOTED"
  | member => "OBJMEMBER"
  | prototype => "PROTOTYPE"

def ofName? (s : String) : Option EdgeType :=
  all.find? (·.name == s)

def isRemote (t : EdgeType) : Bool := t == remoteCall || t == remoteData

def isCall (t : EdgeType) : Bool := t == call || t == remoteCall

theorem ofName?_name (t : EdgeType) : ofName? t.name = some t := by
  cases t <;> decide

end EdgeType

/-- The side from which a node sees an edge. -/
inductive Side where
  | incoming
  | outgoing
deriving DecidableEq, Repr, Inhabited

structure Edge where
  index : Nat
  source : NodeRef
  target : NodeRef
  type : EdgeType
  label : Option String := none
deriving DecidableEq, Repr, Inhabited

namespace Edge

def isLoop (e : Edge) : Bool := e.source == e.target

/-- Any type will do when none is asked for. -/
def hasType (type : Option EdgeType) (e : Edge) : Bool :=
  match type with
  | none => true
  | some t => e.type == t

/-- The end that `side` looks from. -/
def near (side : Side) (e : Edge) : NodeRef :=
  match side with
  | .incoming => e.target
  | .outgoing => e.source

/-- The end that `side` looks at. -/
def far (side : Side) (e : Edge) : NodeRef :=
  match side with
  | .incoming => e.source
  | .outgoing => e.target

def joins (source target : NodeRef) (type : Option EdgeType) (e : Edge) : Bool :=
  e.source == source && e.target == target && e.hasType type

end Edge

end Tierwise
