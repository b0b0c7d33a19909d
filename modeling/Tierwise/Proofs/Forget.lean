import Tierwise.Dependence
import Tierwise.Entry
import Tierwise.Reach
import Tierwise.Slice

/-! # Questions that memos play no part in

Each of them has the same answer on a graph and on the graph without its memos, so two graphs that differ in memos only
answer alike.
-/

namespace Tierwise

/-- A question about a node that does not look at the memo. -/
def Node.MemoFree {α : Type} (p : Node → α) : Prop := ∀ f node, p (Node.modifyMemo f node) = p node

namespace Graph

variable {g h : Graph}

theorem node?_forgetAll (g : Graph) (n : NodeRef) :
    g.forgetAll.node? n = (g.node? n).map (Node.modifyMemo fun _ => {}) := by
  simp [forgetAll, node?]

theorem bind_node?_forgetAll {α : Type} {p : Node → Option α} (hp : Node.MemoFree p) (g : Graph) (n : NodeRef) :
    (g.forgetAll.node? n).bind p = (g.node? n).bind p := by
  rw [node?_forgetAll]
  cases g.node? n with
  | none => rfl
  | some node => exact hp _ node

theorem holds_forgetAll {p : Node → Bool} (hp : Node.MemoFree p) (g : Graph) : g.forgetAll.holds p = g.holds p := by
  funext n
  unfold holds
  rw [node?_forgetAll]
  cases g.node? n with
  | none => rfl
  | some node => exact hp _ node

theorem idOf_forgetAll (g : Graph) (n : NodeRef) : g.forgetAll.idOf n = g.idOf n := by
  simp only [idOf, node?_forgetAll, Option.map_map]
  rfl

@[simp] theorem sliceMark?_forgetAll (g : Graph) : g.forgetAll.sliceMark? = g.sliceMark? := by
  funext n
  exact bind_node?_forgetAll (fun _ _ => rfl) g n

theorem sliceMark?_congr (he : h.forgetAll = g.forgetAll) : h.sliceMark? = g.sliceMark? := by
  rw [← sliceMark?_forgetAll, he, sliceMark?_forgetAll]

/-! ### Adjacency -/

@[simp] theorem edgesAt_forgetAll (g : Graph) (side : Side) (n : NodeRef) (type : Option EdgeType) :
    g.forgetAll.edgesAt side n type = g.edgesAt side n type := rfl

@[simp] theorem neighbours_forgetAll (g : Graph) (side : Side) (n : NodeRef) (type : Option EdgeType) :
    g.forgetAll.neighbours side n type = g.neighbours side n type := rfl

@[simp] theorem edge?_forgetAll (g : Graph) (index : Nat) : g.forgetAll.edge? index = g.edge? index := rfl

theorem neighboursWhere_forgetAll {p : Node → Bool} (hp : Node.MemoFree p) (g : Graph) (side : Side) (n : NodeRef) :
    g.forgetAll.neighboursWhere side n p = g.neighboursWhere side n p := by
  unfold neighboursWhere
  rw [holds_forgetAll hp, neighbours_forgetAll]

/-! ### Slice roots -/

@[simp] theorem crossable_forgetAll (g : Graph) : g.forgetAll.crossable = g.crossable := by
  funext e
  unfold crossable
  rw [node?_forgetAll, node?_forgetAll]
  cases g.node? e.source <;> cases g.node? e.target <;> rfl

@[simp] theorem provenance_forgetAll (g : Graph) : g.forgetAll.provenance = g.provenance := by
  have harcs : g.forgetAll.provenanceArcs = g.provenanceArcs := by
    unfold provenanceArcs
    rw [crossable_forgetAll]
    rfl
  funext n
  unfold provenance
  rw [harcs, holds_forgetAll (fun _ _ => rfl)]
  rfl

@[simp] theorem sliceRootOf_forgetAll (g : Graph) (n : NodeRef) : g.forgetAll.sliceRootOf n = g.sliceRootOf n := by
  unfold sliceRootOf Trail.sliceRoot?
  rw [holds_forgetAll (fun _ _ => rfl), provenance_forgetAll]

@[simp] theorem classify_forgetAll (g : Graph) (n : NodeRef) : g.forgetAll.classify n = g.classify n := by
  unfold classify Trail.resolution
  rw [sliceMark?_forgetAll, provenance_forgetAll]

@[simp] theorem tierOf_forgetAll (g : Graph) (n : NodeRef) : g.forgetAll.tierOf n = g.tierOf n := by
  unfold tierOf Trail.tier?
  rw [sliceMark?_forgetAll, provenance_forgetAll]

/-! ### Scopes, slices and reachability -/

@[simp] theorem enclosingEntry_forgetAll (g : Graph) (n : NodeRef) :
    g.forgetAll.enclosingEntry n = g.enclosingEntry n := by
  unfold enclosingEntry
  rw [holds_forgetAll (fun _ _ => rfl)]
  rfl

@[simp] theorem enclosingObjectEntry_forgetAll (g : Graph) (n : NodeRef) :
    g.forgetAll.enclosingObjectEntry n = g.enclosingObjectEntry n := by
  have hat : g.forgetAll.objectEntryAt = g.objectEntryAt := by
    funext m
    exact bind_node?_forgetAll (fun _ _ => rfl) g m
  unfold enclosingObjectEntry
  rw [hat]
  rfl

@[simp] theorem sliceNodes_forgetAll (g : Graph) (n : NodeRef) : g.forgetAll.sliceNodes n = g.sliceNodes n := rfl

theorem run_reach_forgetAll (g : Graph) (target : NodeRef) (limit : Nat) (queue : List Edge) (queued : List Nat) :
    Reach.run g.forgetAll target limit queue queued = Reach.run g target limit queue queued := by
  induction limit generalizing queue queued with
  | zero => rfl
  | succ limit ih =>
    cases queue with
    | nil => rfl
    | cons e rest =>
      simp only [Reach.run, ih]
      rfl

@[simp] theorem pathExists_forgetAll (g : Graph) (a b : NodeRef) : g.forgetAll.pathExists a b = g.pathExists a b := by
  unfold pathExists reach
  rw [run_reach_forgetAll]
  rfl

/-! ### Dependents -/

@[simp] theorem argumentSlots_forgetAll (g : Graph) : g.forgetAll.argumentSlots = g.argumentSlots := by
  funext n
  unfold argumentSlots
  rw [holds_forgetAll (fun _ _ => rfl)]
  rfl

@[simp] theorem climb?_forgetAll (g : Graph) : g.forgetAll.climb? = g.climb? := by
  funext n
  unfold climb? callsOf
  rw [argumentSlots_forgetAll, holds_forgetAll (fun _ _ => rfl)]
  rfl

theorem climbOut?_forgetAll (g : Graph) (limit : Nat) (seen : List NodeRef) (n : NodeRef) :
    g.forgetAll.climbOut? limit seen n = g.climbOut? limit seen n := by
  induction limit generalizing seen n with
  | zero => simp [climbOut?]
  | succ limit ih => simp [climbOut?, ih]

@[simp] theorem outermostCall_forgetAll (g : Graph) (n : NodeRef) :
    g.forgetAll.outermostCall n = g.outermostCall n := by
  unfold outermostCall
  rw [climbOut?_forgetAll, idOf_forgetAll]
  rfl

theorem step_forgetAll (g : Graph) (keepActuals : Bool) (c : Closure) (e : Edge) :
    Closure.step g.forgetAll keepActuals c e = Closure.step g keepActuals c e := by
  have hactual : ∀ n, c.throughActual g.forgetAll n = c.throughActual g n := by
    intro n
    unfold Closure.throughActual
    rw [argumentSlots_forgetAll]
    simp only [outermostCall_forgetAll]
    rfl
  have hcall : ∀ n, c.throughCall g.forgetAll n = c.throughCall g n := by
    intro n
    unfold Closure.throughCall
    rw [holds_forgetAll (fun _ _ => rfl)]
    rfl
  unfold Closure.step
  rw [hactual, hcall, g.holds_forgetAll (p := Node.isActual) (fun _ _ => rfl),
    g.holds_forgetAll (p := Node.isCall) (fun _ _ => rfl), g.holds_forgetAll (p := Node.isFormal) (fun _ _ => rfl)]
  rfl

theorem run_forgetAll (g : Graph) (keepActuals : Bool) (limit : Nat) (c : Closure) :
    Closure.run g.forgetAll keepActuals limit c = Closure.run g keepActuals limit c := by
  induction limit generalizing c with
  | zero => rfl
  | succ limit ih => simp only [Closure.run, step_forgetAll, ih]

@[simp] theorem dependents_forgetAll (g : Graph) (origin : NodeRef) (crossTier keepActuals : Bool) :
    g.forgetAll.dependents origin crossTier keepActuals = g.dependents origin crossTier keepActuals :=
  run_forgetAll g keepActuals g.worklistLimit _

/-- What may be asked of a graph without leaving anything on it has the same answers on both graphs. -/
structure SameAnswers (g h : Graph) : Prop where
  classify (n : NodeRef) : h.classify n = g.classify n
  sliceRootOf (n : NodeRef) : h.sliceRootOf n = g.sliceRootOf n
  tierOf (n : NodeRef) : h.tierOf n = g.tierOf n
  enclosingEntry (n : NodeRef) : h.enclosingEntry n = g.enclosingEntry n
  enclosingObjectEntry (n : NodeRef) : h.enclosingObjectEntry n = g.enclosingObjectEntry n
  dependents (n : NodeRef) (crossTier keepActuals : Bool) :
    h.dependents n crossTier keepActuals = g.dependents n crossTier keepActuals
  pathExists (a b : NodeRef) : h.pathExists a b = g.pathExists a b
  sliceNodes (n : NodeRef) : h.sliceNodes n = g.sliceNodes n
  edgesAt (side : Side) (n : NodeRef) (type : Option EdgeType) : h.edgesAt side n type = g.edgesAt side n type
  neighbours (side : Side) (n : NodeRef) (type : Option EdgeType) : h.neighbours side n type = g.neighbours side n type
  neighboursWhere {p : Node → Bool} (hp : Node.MemoFree p) (side : Side) (n : NodeRef) :
    h.neighboursWhere side n p = g.neighboursWhere side n p
  edge? (index : Nat) : h.edge? index = g.edge? index
  edgeLabel? (index : Nat) : h.edgeLabel? index = g.edgeLabel? index

theorem sameAnswers_of_forgetAll_eq (he : h.forgetAll = g.forgetAll) : SameAnswers g h where
  classify n := by rw [← classify_forgetAll, he, classify_forgetAll]
  sliceRootOf n := by rw [← sliceRootOf_forgetAll, he, sliceRootOf_forgetAll]
  tierOf n := by rw [← tierOf_forgetAll, he, tierOf_forgetAll]
  enclosingEntry n := by rw [← enclosingEntry_forgetAll, he, enclosingEntry_forgetAll]
  enclosingObjectEntry n := by rw [← enclosingObjectEntry_forgetAll, he, enclosingObjectEntry_forgetAll]
  dependents n crossTier keepActuals := by rw [← dependents_forgetAll, he, dependents_forgetAll]
  pathExists a b := by rw [← pathExists_forgetAll, he, pathExists_forgetAll]
  sliceNodes n := by rw [← sliceNodes_forgetAll, he, sliceNodes_forgetAll]
  edgesAt side n type := by rw [← edgesAt_forgetAll, he, edgesAt_forgetAll]
  neighbours side n type := by rw [← neighbours_forgetAll, he, neighbours_forgetAll]
  neighboursWhere hp side n := by rw [← neighboursWhere_forgetAll hp, he, neighboursWhere_forgetAll hp]
  edge? index := by rw [← edge?_forgetAll, he, edge?_forgetAll]
  edgeLabel? index := by rw [edgeLabel?, ← edge?_forgetAll, he, edge?_forgetAll, edgeLabel?]

end Graph
end Tierwise
