import Tierwise.Tier
import Tierwise.Construct

/-! # Nodes of the dependence graph

A node has a kind with its state, the syntax behind it, and what queries remembered.
-/

namespace Tierwise

/-- What a function entry keeps. An object entry keeps the same. -/
structure EntryState where
  isCalled : Bool := false
  /-- Calls from the client, in a counter of 32 bits. -/
  clientTally : UInt32 := 0
  /-- Calls from the server, in a counter of 32 bits. -/
  serverTally : UInt32 := 0
  isConstructor : Bool := false
  /-- Exits that leave by an exception, in order of registration. -/
  exceptionExits : List NodeRef := []
deriving DecidableEq, Repr, Inhabited

namespace EntryState

def clientCalls (s : EntryState) : Nat := s.clientTally.toNat

def serverCalls (s : EntryState) : Nat := s.serverTally.toNat

end EntryState

/-- What an object entry keeps beside its entry state. A name is bound at most once. -/
structure ObjectState where
  entry : EntryState := {}
  members : List (String × NodeRef) := []
  constructorNode : Option NodeRef := none
deriving DecidableEq, Repr, Inhabited

namespace ObjectState

def member? (o : ObjectState) (name : String) : Option NodeRef := o.members.lookup name

/-- A name that is already bound is bound anew. -/
def bind (o : ObjectState) (name : String) (member : NodeRef) : ObjectState :=
  { o with members := (name, member) :: o.members.filter (·.1 != name) }

theorem member?_bind (o : ObjectState) (name other : String) (member : NodeRef) :
    (o.bind name member).member? other = if other = name then some member else o.member? other := by
  simp only [member?, bind, List.lookup_cons]
  by_cases h : other = name
  · simp [h]
  · simp only [beq_eq_false_iff_ne.2 h, h, if_false]
    induction o.members with
    | nil => rfl
    | cons m r ih =>
      obtain ⟨k, v⟩ := m
      by_cases hk : k = name
      · simp [hk, ih, List.lookup_cons, beq_eq_false_iff_ne.2 h]
      · simp [hk, ih, List.lookup_cons]

end ObjectState

/-- What a slice root declares for everything below it. -/
structure SliceMark where
  tag : Tag
  tier : Option Tier
  /-- The root stands for a tier itself. -/
  distributed : Bool
deriving DecidableEq, Repr, Inhabited

inductive NodeKind where
  | entry (state : EntryState)
  | objectEntry (state : ObjectState)
  | call (arity : Option Arity)
  | statement
  | formal (flow : Flow) (name : String)
  | actual (flow : Flow) (value : Option String)
  | exit (exceptional : Bool)
  | slice (mark : SliceMark)
deriving DecidableEq, Repr, Inhabited

/-- Kinds as a reader sees them. -/
inductive NodeLabel where
  | entry
  | objectEntry
  | call
  | statement
  | formal
  | actual
  | exit
  | functionality
  | distributed
deriving DecidableEq, Repr, Inhabited

def NodeLabel.text : NodeLabel → String
  | entry => "entry"
  | objectEntry => "object entry"
  | call => "call"
  | statement => "statement"
  | formal => "formal parameter"
  | actual => "actual parameter"
  | exit => "exit"
  | functionality => "functionality"
  | distributed => "distributed"

def NodeKind.label : NodeKind → NodeLabel
  | entry _ => .entry
  | objectEntry _ => .objectEntry
  | call _ => .call
  | statement => .statement
  | formal _ _ => .formal
  | actual _ _ => .actual
  | exit _ => .exit
  | slice mark => if mark.distributed then .distributed else .functionality

/-- The id of a node of this kind: a letter for the kind and the creation number, or the tag of a slice root. -/
def NodeKind.id (serial : Nat) : NodeKind → String
  | entry _ => "e" ++ toString serial
  | objectEntry _ => "o" ++ toString serial
  | call _ => "c" ++ toString serial
  | statement => "s" ++ toString serial
  | formal flow _ => "f" ++ toString serial ++ "_" ++ flow.suffix
  | actual flow _ => "a" ++ toString serial ++ "_" ++ flow.suffix
  | exit _ => "ex" ++ toString serial
  | slice mark => "C" ++ mark.tag.text

/-- Answers that memoizing queries left on a node. -/
structure Memo where
  tag : Option Tag := none
  /-- `some none` is an answer: no slice root above declares a tier. -/
  tier : Option (Option Tier) := none
  objectEntry : Option NodeRef := none
deriving DecidableEq, Repr, Inhabited

def Memo.isEmpty (m : Memo) : Bool := m.tag.isNone && m.tier.isNone && m.objectEntry.isNone

structure Node where
  /-- The creation number, which failed creations use up too. -/
  serial : Nat
  kind : NodeKind
  construct : Option Construct := none
  /-- The root of the program ends the search for a slice root. -/
  isRoot : Bool := false
  /-- The root of an object literal or of a constructor's body. -/
  isObjectRoot : Bool := false
  memo : Memo := {}
deriving DecidableEq, Repr, Inhabited

namespace Node

def id (n : Node) : String := n.kind.id n.serial

def label (n : Node) : NodeLabel := n.kind.label

/-- A function entry. Object entries do not count. -/
def isEntry (n : Node) : Bool :=
  match n.kind with
  | .entry _ => true
  | _ => false

def isObjectEntry (n : Node) : Bool :=
  match n.kind with
  | .objectEntry _ => true
  | _ => false

def isCall (n : Node) : Bool :=
  match n.kind with
  | .call _ => true
  | _ => false

def isStatement (n : Node) : Bool :=
  match n.kind with
  | .statement => true
  | _ => false

def isFormal (n : Node) : Bool :=
  match n.kind with
  | .formal _ _ => true
  | _ => false

def isActual (n : Node) : Bool :=
  match n.kind with
  | .actual _ _ => true
  | _ => false

def isExit (n : Node) : Bool :=
  match n.kind with
  | .exit _ => true
  | _ => false

def isExceptionExit (n : Node) : Bool :=
  match n.kind with
  | .exit exceptional => exceptional
  | _ => false

def sliceMark? (n : Node) : Option SliceMark :=
  match n.kind with
  | .slice mark => some mark
  | _ => none

def isSlice (n : Node) : Bool := n.sliceMark?.isSome

def isDistributed (n : Node) : Bool := n.sliceMark?.any SliceMark.distributed

def flow? (n : Node) : Option Flow :=
  match n.kind with
  | .formal flow _ => some flow
  | .actual flow _ => some flow
  | _ => none

def entryState? (n : Node) : Option EntryState :=
  match n.kind with
  | .entry state => some state
  | .objectEntry state => some state.entry
  | _ => none

/-- Nothing happens to a node that is no entry. -/
def modifyEntry (f : EntryState → EntryState) (n : Node) : Node :=
  match n.kind with
  | .entry state => { n with kind := .entry (f state) }
  | .objectEntry state => { n with kind := .objectEntry { state with entry := f state.entry } }
  | _ => n

def objectState? (n : Node) : Option ObjectState :=
  match n.kind with
  | .objectEntry state => some state
  | _ => none

/-- Nothing happens to a node that is no object entry. -/
def modifyObject (f : ObjectState → ObjectState) (n : Node) : Node :=
  match n.kind with
  | .objectEntry state => { n with kind := .objectEntry (f state) }
  | _ => n

def exceptionExits (n : Node) : List NodeRef := (n.entryState?.map EntryState.exceptionExits).getD []

def members (n : Node) : List (String × NodeRef) := (n.objectState?.map ObjectState.members).getD []

def modifyMemo (f : Memo → Memo) (n : Node) : Node := { n with memo := f n.memo }

def knownTag? (n : Node) : Option Tag :=
  match n.sliceMark? with
  | some mark => some mark.tag
  | none => n.memo.tag

def knownTier? (n : Node) : Option Tier :=
  (n.sliceMark?.bind SliceMark.tier).or n.memo.tier.join

/-- A question about the syntax behind a node; no syntax, no. -/
def hasConstruct (p : Construct → Bool) (n : Node) : Bool := n.construct.any p

/-- Nodes that a function body consists of. -/
def isBodyNode (n : Node) : Bool := n.isStatement || n.isCall || n.isObjectEntry || n.isEntry

/-- The search for a slice root ends here. -/
def isStop (n : Node) : Bool := n.isSlice || n.isRoot

end Node

/-- Questions that a caller can ask of nodes by name. -/
inductive NodeTest where
  | id (text : String)
  | entry
  | objectEntry
  | call
  | statement
  | formal
  | actual
  | exit
  | slice
  | distributed
  | exceptionExit
  | root
  | objectRoot
  | construct
  | any
deriving DecidableEq, Repr, Inhabited

def NodeTest.holds : NodeTest → Node → Bool
  | id text, n => n.id == text
  | entry, n => n.isEntry
  | objectEntry, n => n.isObjectEntry
  | call, n => n.isCall
  | statement, n => n.isStatement
  | formal, n => n.isFormal
  | actual, n => n.isActual
  | exit, n => n.isExit
  | slice, n => n.isSlice
  | distributed, n => n.isDistributed
  | exceptionExit, n => n.isExceptionExit
  | root, n => n.isRoot
  | objectRoot, n => n.isObjectRoot
  | construct, n => n.construct.isSome
  | any, _ => true

/-- Questions about the slice root above a node, if there is one. -/
inductive SliceTest where
  | absent
  | present
  | distributed
  | id (text : String)
deriving DecidableEq, Repr, Inhabited

def SliceTest.holds : SliceTest → Option Node → Bool
  | absent, root => root.isNone
  | present, root => root.isSome
  | distributed, root => root.any Node.isDistributed
  | id text, root => root.any (·.id == text)

end Tierwise
