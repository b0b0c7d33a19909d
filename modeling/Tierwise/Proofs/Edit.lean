import Tierwise.CallSite
import Tierwise.Member
import Tierwise.Proofs.Memo

/-! # Everything that can be done to a graph

Edits are data, and graphs come about by doing them.
-/

namespace Tierwise

/-- The nodes that a query is asked about by name. -/
def MemoQuery.handles : MemoQuery → List NodeRef
  | resolve n _ | tag n _ | tier n | isClient n | isServer n | isShared n | enclosingObjectEntry n => [n]
  | sameTag a b | sameTier a b => [a, b]
  | serverCalls entry | clientCalls entry => [entry]
  | countTagged root _ _ _ | neighbourTags root _ _ => [root]
  | classifyProgram | summarizeSlices => []

/-- An operation that may change a graph. -/
inductive Edit where
  | addEntry (construct : Option Construct)
  | addObjectEntry (construct : Option Construct)
  | addCallNode (construct : Option Construct)
  | addStatement (construct : Option Construct)
  | addFormal (name : String) (flow : Flow)
  | addActual (flow : Flow) (construct : Option Construct) (value : Option String)
  | addExit (construct : Option Construct) (exceptional : Bool)
  | addSliceRoot (tag : Tag) (tier : Option Tier)
  | addTierRoot (tier : Tier)
  | ensureTierRoot (tier : Tier)
  | markRoot (n : NodeRef)
  | markObjectRoot (n : NodeRef)
  | addEdge (source target : NodeRef) (type : EdgeType) (label : Option String)
  | addEdgesOut (source : NodeRef) (ends : List (NodeRef × EdgeType × Option String))
  | addEdgesIn (target : NodeRef) (ends : List (NodeRef × EdgeType))
  | removeOut (source target : NodeRef) (type : Option EdgeType)
  | removeIn (target source : NodeRef) (type : Option EdgeType)
  | addExceptionExit (entry exit : NodeRef)
  | setIsConstructor (entry : NodeRef) (flag : Bool)
  | addCall (entry call : NodeRef)
  | addMember (object : NodeRef) (name : String) (member : NodeRef)
  | setConstructorNode (object node : NodeRef)
  | setArity (call : NodeRef) (arity : Arity)
  | setSettings (settings : Settings)
  | forget (n : NodeRef)
  | forgetAll
  | ask (query : MemoQuery)
deriving DecidableEq, Repr

namespace Edit

/-- The graph after the operation, whether it succeeds or fails. -/
def apply (g : Graph) : Edit → Graph
  | addEntry construct => (g.addEntry construct).2
  | addObjectEntry construct => (g.addObjectEntry construct).2
  | addCallNode construct => (g.addCallNode construct).2
  | addStatement construct => (g.addStatement construct).2
  | addFormal name flow => (g.addFormal name flow).2
  | addActual flow construct value => (g.addActual flow construct value).2
  | addExit construct exceptional => (g.addExit construct exceptional).2
  | addSliceRoot tag tier => (g.addSliceRoot tag tier).2
  | addTierRoot tier => (g.addTierRoot tier).2
  | ensureTierRoot tier => (g.ensureTierRoot tier).2
  | markRoot n => g.markRoot n
  | markObjectRoot n => g.markObjectRoot n
  | addEdge source target type label => (g.addEdge source target type label).2
  | addEdgesOut source ends => (g.addEdgesOut source ends).2
  | addEdgesIn target ends => (g.addEdgesIn target ends).2
  | removeOut source target type => (g.removeEdges source target type).2
  | removeIn target source type => (g.removeEdges source target type).2
  | addExceptionExit entry exit => (g.addExceptionExit entry exit).2
  | setIsConstructor entry flag => (g.setIsConstructor entry flag).2
  | addCall entry call => (Query.addCall entry call g).graph
  | addMember object name member => (g.addMember object name member).2
  | setConstructorNode object node => (g.setConstructorNode object node).2
  | setArity call arity => (g.setArity call arity).2
  | setSettings settings => (g.setSettings settings).2
  | forget n => g.forget n
  | forgetAll => g.forgetAll
  | ask query => query.after g

/-- One operation after the other. -/
def applyAll (g : Graph) (edits : List Edit) : Graph := edits.foldl apply g

/-- The nodes that an operation names. -/
def handles : Edit → List NodeRef
  | markRoot n | markObjectRoot n | forget n => [n]
  | addEdge source target _ _ | removeOut source target _ | removeIn target source _ => [source, target]
  | addEdgesOut source ends => source :: ends.map (·.1)
  | addEdgesIn target ends => target :: ends.map (·.1)
  | addExceptionExit entry exit => [entry, exit]
  | setIsConstructor entry _ => [entry]
  | addCall entry call => [entry, call]
  | addMember object _ member => [object, member]
  | setConstructorNode object node => [object, node]
  | setArity call _ => [call]
  | ask query => query.handles
  | addEntry _ | addObjectEntry _ | addCallNode _ | addStatement _ | addFormal _ _ | addActual _ _ _ | addExit _ _ => []
  | addSliceRoot _ _ | addTierRoot _ | ensureTierRoot _ | setSettings _ | forgetAll => []

/-- Every node that the operation names is in the graph. -/
def Within (g : Graph) (e : Edit) : Prop := ∀ n ∈ e.handles, n < g.nodes.size
deriving Decidable

/-- Every operation of a run names only nodes that are there when its turn comes. -/
def WithinAll (g : Graph) : List Edit → Prop
  | [] => True
  | e :: rest => e.Within g ∧ WithinAll (e.apply g) rest

instance decidableWithinAll : (g : Graph) → (edits : List Edit) → Decidable (WithinAll g edits)
  | _, [] => isTrue trivial
  | g, e :: rest =>
    have := decidableWithinAll (e.apply g) rest
    inferInstanceAs (Decidable (e.Within g ∧ WithinAll (e.apply g) rest))

/-- Of every operation of a run, and of the graph that it finds, `P` holds. -/
def Along (P : Graph → Edit → Prop) (g : Graph) : List Edit → Prop
  | [] => True
  | e :: rest => P g e ∧ Along P (e.apply g) rest

instance decidableAlong {P : Graph → Edit → Prop} [∀ g e, Decidable (P g e)] :
    (g : Graph) → (edits : List Edit) → Decidable (Along P g edits)
  | _, [] => isTrue trivial
  | g, e :: rest =>
    have : Decidable (Along P (e.apply g) rest) := decidableAlong (e.apply g) rest
    inferInstanceAs (Decidable (P g e ∧ Along P (e.apply g) rest))

/-- What the operations of a run yield, in order. -/
def collect {α : Type} (f : Graph → Edit → List α) (g : Graph) : List Edit → List α
  | [] => []
  | e :: rest => f g e ++ collect f (e.apply g) rest

end Edit

/-- A graph that comes about from an empty one by operations that name only nodes of the graph. -/
inductive Graph.Attained : Graph → Prop
  | empty : Attained empty
  | withSettings {s : Settings} {g : Graph} : Graph.withSettings s = .ok g → Attained g
  | edit {g : Graph} {e : Edit} : Attained g → e.Within g → Attained (e.apply g)

/-- A graph as it is made, before any operation. -/
inductive Graph.Initial : Graph → Prop
  | empty : Initial empty
  | withSettings {s : Settings} {g : Graph} : Graph.withSettings s = .ok g → Initial g

theorem Graph.Initial.eq_blank {g : Graph} (hg : g.Initial) : g = { settings := g.settings } := by
  cases hg with
  | empty => rfl
  | @withSettings s g hs =>
    unfold Graph.withSettings at hs
    split at hs
    · cases hs
    · cases hs
      rfl

theorem Graph.Attained.applyAll {g : Graph} {edits : List Edit} (hg : g.Attained) (h : Edit.WithinAll g edits) :
    (Edit.applyAll g edits).Attained := by
  induction edits generalizing g with
  | nil => exact hg
  | cons e rest ih => exact ih (hg.edit h.1) h.2

end Tierwise
