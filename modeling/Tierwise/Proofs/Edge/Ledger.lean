import Tierwise.Proofs.Edge.Order
import Tierwise.Proofs.Edit

/-! # The edges of a graph against a plain list

Every addition puts an edge at the end of the list, under the index that was handed out for it, and every removal
strikes edges out. After any run of operations whatever can be asked about edges can be read off the list.
-/

namespace Tierwise

/-- The edge leads from `source` to `target` and is of the type asked for, if one is. -/
def Edge.Between (source target : NodeRef) (type : Option EdgeType) (e : Edge) : Prop :=
  e.source = source ∧ e.target = target ∧ (type = none ∨ type = some e.type)
deriving Decidable

theorem Edge.joins_iff {source target : NodeRef} {type : Option EdgeType} {e : Edge} :
    e.joins source target type = true ↔ e.Between source target type := by
  simp [Edge.joins, Edge.Between, Edge.hasType_iff, and_assoc]

namespace Edit

/-- What the operation does to the list. It is told the graph only for the indices handed out, and for whether a member
can be added. -/
def record (g : Graph) (ledger : List Edge) : Edit → List Edge
  | addEdge source target type label => ledger ++ [⟨(g.addEdge source target type label).1, source, target, type, label⟩]
  | addEdgesOut source ends =>
    ledger ++ ((g.addEdgesOut source ends).1.zip ends).map fun p => ⟨p.1, source, p.2.1, p.2.2.1, p.2.2.2⟩
  | addEdgesIn target ends =>
    ledger ++ ((g.addEdgesIn target ends).1.zip ends).map fun p => ⟨p.1, p.2.1, target, p.2.2, none⟩
  | addMember object name member =>
    match (g.addMember object name member).1 with
    | .ok _ => ledger ++ [⟨(g.addEdge object member .member).1, object, member, .member, none⟩]
    | .error _ => ledger
  | removeOut source target type => ledger.filter fun e => ¬e.Between source target type
  | removeIn target source type => ledger.filter fun e => ¬e.Between source target type
  | _ => ledger

/-- The list after a run of operations that starts at the graph `g`. -/
def recordAll (g : Graph) (ledger : List Edge) : List Edit → List Edge
  | [] => ledger
  | e :: rest => recordAll (e.apply g) (e.record g ledger) rest

end Edit

namespace Graph

theorem live_addEdgesOut (g : Graph) (source : NodeRef) (ends : List (NodeRef × EdgeType × Option String)) :
    (g.addEdgesOut source ends).2.edges.live = g.edges.live ++
      ((g.addEdgesOut source ends).1.zip ends).map fun p => ⟨p.1, source, p.2.1, p.2.2.1, p.2.2.2⟩ := by
  induction ends generalizing g with
  | nil => simp [addEdgesOut]
  | cons x rest ih => simp [addEdgesOut, ih, addEdge]

theorem live_addEdgesIn (g : Graph) (target : NodeRef) (ends : List (NodeRef × EdgeType)) :
    (g.addEdgesIn target ends).2.edges.live = g.edges.live ++
      ((g.addEdgesIn target ends).1.zip ends).map fun p => ⟨p.1, p.2.1, target, p.2.2, none⟩ := by
  induction ends generalizing g with
  | nil => simp [addEdgesIn]
  | cons x rest ih => simp [addEdgesIn, ih, addEdge]

theorem live_removeEdges (g : Graph) (source target : NodeRef) (type : Option EdgeType) :
    (g.removeEdges source target type).2.edges.live = g.edges.live.filter fun e => ¬e.Between source target type := by
  rw [removeEdges, EdgeStore.live_remove]
  congr 1
  funext e
  simp [← Edge.joins_iff]

theorem live_addMember (g : Graph) (object member : NodeRef) (name : String) :
    (g.addMember object name member).2.edges.live =
      match (g.addMember object name member).1 with
      | .ok _ => g.edges.live ++ [⟨(g.addEdge object member .member).1, object, member, .member, none⟩]
      | .error _ => g.edges.live := by
  unfold addMember
  cases g.expect object Node.isObjectEntry .objectEntry with
  | error _ => rfl
  | ok _ => exact EdgeStore.live_add ..

/-! ### Operations that leave the edges alone -/

@[simp] theorem edges_forgetAll (g : Graph) : g.forgetAll.edges = g.edges := rfl

theorem Refreshed.edges_eq {g h : Graph} (hgh : g.Refreshed h) : h.edges = g.edges := by
  rw [← edges_forgetAll h, hgh.1, edges_forgetAll]

@[simp] theorem edges_addSlice (g : Graph) (mark : SliceMark) : (g.addSlice mark).2.edges = g.edges := by
  simp only [addSlice]
  split <;> rfl

@[simp] theorem edges_ensureTierRoot (g : Graph) (tier : Tier) : (g.ensureTierRoot tier).2.edges = g.edges := by
  unfold ensureTierRoot
  split
  · rfl
  · exact g.edges_addSlice _

@[simp] theorem edges_addExceptionExit (g : Graph) (entry exit : NodeRef) :
    (g.addExceptionExit entry exit).2.edges = g.edges := by
  unfold addExceptionExit
  split <;> rfl

@[simp] theorem edges_setIsConstructor (g : Graph) (entry : NodeRef) (flag : Bool) :
    (g.setIsConstructor entry flag).2.edges = g.edges := by
  unfold setIsConstructor
  split <;> rfl

@[simp] theorem edges_addCall (g : Graph) (entry call : NodeRef) :
    (Query.addCall entry call g).graph.edges = g.edges := by
  cases h : g.expect entry (·.entryState?.isSome) .entry with
  | error _ => simp [Query.addCall, h]
  | ok _ => simp [Query.addCall, h, Query.edit, (Query.faithful_tier call g).edges_eq]

@[simp] theorem edges_setConstructorNode (g : Graph) (object node : NodeRef) :
    (g.setConstructorNode object node).2.edges = g.edges := by
  unfold setConstructorNode
  split <;> rfl

@[simp] theorem edges_setArity (g : Graph) (call : NodeRef) (arity : Arity) :
    (g.setArity call arity).2.edges = g.edges := by
  unfold setArity
  split <;> rfl

@[simp] theorem edges_setSettings (g : Graph) (settings : Settings) : (g.setSettings settings).2.edges = g.edges := by
  unfold setSettings
  split <;> rfl

end Graph

namespace Edit

/-- An operation does to the live edges what it does to the list. -/
theorem live_apply (g : Graph) (e : Edit) : (e.apply g).edges.live = e.record g g.edges.live := by
  cases e with
  | addEdge source target type label => exact EdgeStore.live_add ..
  | addEdgesOut source ends => exact g.live_addEdgesOut source ends
  | addEdgesIn target ends => exact g.live_addEdgesIn target ends
  | removeOut source target type => exact g.live_removeEdges source target type
  | removeIn target source type => exact g.live_removeEdges source target type
  | addMember object name member => exact g.live_addMember object member name
  | ask query => simp [apply, record, (MemoQuery.refreshed_after g query).edges_eq]
  | addSliceRoot | addTierRoot => simp [apply, record, Graph.addSliceRoot, Graph.addTierRoot]
  | ensureTierRoot | addExceptionExit | setIsConstructor | addCall | setConstructorNode | setArity | setSettings =>
    simp [apply, record]
  | _ => rfl

theorem live_applyAll (g : Graph) (edits : List Edit) :
    (applyAll g edits).edges.live = recordAll g g.edges.live edits := by
  induction edits generalizing g with
  | nil => rfl
  | cons e rest ih =>
    rw [recordAll, ← live_apply]
    exact ih (e.apply g)

end Edit

/-! ### What can be read off the list -/

/-- The graph answers every question about edges as the list does. -/
structure Graph.ReadsAs (g : Graph) (ledger : List Edge) : Prop where
  outEdges : ∀ n type, g.outEdges n type = ledger.filter fun e => e.source = n ∧ (type = none ∨ type = some e.type)
  inEdges : ∀ n type, g.inEdges n type = ledger.filter fun e => e.target = n ∧ (type = none ∨ type = some e.type)
  /-- An edge is seen from its source iff it is seen from its target. -/
  mirrored : ∀ e type, e ∈ g.outEdges e.source type ↔ e ∈ g.inEdges e.target type
  nodup_index : (ledger.map Edge.index).Nodup
  edge : ∀ i e, g.edge? i = some e ↔ e ∈ ledger ∧ e.index = i
  edge_none : ∀ i, g.edge? i = none ↔ ∀ e ∈ ledger, e.index ≠ i
  edgeLabel : ∀ i label, g.edgeLabel? i = some label ↔ ∃ e ∈ ledger, e.index = i ∧ e.label = some label
  edgeCount : g.edgeCount = ledger.length
  /-- An index that is handed out is not in use. -/
  fresh : ∀ source target type label, ∀ e ∈ ledger, e.index ≠ (g.addEdge source target type label).1
  /-- One index is handed out for each edge. -/
  length_addEdgesOut : ∀ source ends, (g.addEdgesOut source ends).1.length = ends.length
  length_addEdgesIn : ∀ target ends, (g.addEdgesIn target ends).1.length = ends.length
  /-- A removal counts the edges that it strikes out. -/
  removeEdges : ∀ source target type, (g.removeEdges source target type).1 =
    (ledger.filter fun e => e.Between source target type).length

namespace Graph

theorem readsAs_live (g : Graph) : g.ReadsAs g.edges.live where
  outEdges := g.edgesAt_eq_filter .outgoing
  inEdges := g.edgesAt_eq_filter .incoming
  mirrored := by
    intro e type
    simp [Graph.outEdges, Graph.inEdges, mem_edgesAt, Edge.near]
  nodup_index := g.edges.nodup_index_live
  edge := fun _ _ => EdgeStore.get?_eq_some_iff
  edge_none := by
    intro i
    rw [Option.eq_none_iff_forall_ne_some]
    constructor
    · rintro h e he rfl
      exact h e (EdgeStore.mem_live.1 he)
    · intro h e he
      obtain ⟨hlive, hindex⟩ := EdgeStore.get?_eq_some_iff.1 he
      exact h e hlive hindex
  edgeLabel := by
    intro i label
    simp [edgeLabel?, Option.bind_eq_some_iff, Graph.edge?, EdgeStore.get?_eq_some_iff, and_assoc]
  edgeCount := g.edges.length_entries
  fresh := fun _ _ _ _ _ he => EdgeStore.index_ne_nextIndex he
  length_addEdgesOut := by
    intro source ends
    induction ends generalizing g with
    | nil => rfl
    | cons x rest ih => simp [Graph.addEdgesOut, ih]
  length_addEdgesIn := by
    intro target ends
    induction ends generalizing g with
    | nil => rfl
    | cons x rest ih => simp [Graph.addEdgesIn, ih]
  removeEdges := by
    intro source target type
    simp [Graph.removeEdges, EdgeStore.between_eq_filter, ← Edge.joins_iff]

/-- After any run of operations the graph reads as the list that was kept along with it. -/
theorem readsAs_recordAll (edits : List Edit) :
    (Edit.applyAll empty edits).ReadsAs (Edit.recordAll empty [] edits) := by
  have hlive : (Edit.applyAll empty edits).edges.live = Edit.recordAll empty [] edits := Edit.live_applyAll empty edits
  rw [← hlive]
  exact readsAs_live _

end Graph

end Tierwise
