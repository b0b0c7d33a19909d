import Tierwise.Entry
import Tierwise.Program

/-! # What queries leave on a graph

It is put as a relation between the graph before and the graph after. Three queries write memos, and the others write
only by asking these. So a relation that the three respect is respected by every query, by itself and in a run, apart
from those that pass over what is remembered.
-/

namespace Tierwise

namespace Query

variable {α β : Type} {R : Graph → Graph → Prop} {q : Query α}

/-- The graph that the query leaves is related to the graph that it was asked of. -/
def Leaves (R : Graph → Graph → Prop) (q : Query α) : Prop := ∀ g : Graph, R g (q g).graph

/-- What was written for one item does not change the answer for another. -/
theorem value_each_of_leaves {f : α → Query β} (hf : ∀ a, Leaves R (f a))
    (hvalue : ∀ a g h, R g h → (f a h).value = (f a g).value) (as : List α) (g : Graph) :
    (each f as g).value = as.map fun a => (f a g).value := by
  induction as generalizing g with
  | nil => rfl
  | cons a rest ih =>
    have hrest : ∀ b, (f b (f a g).graph).value = (f b g).value := fun b => hvalue b g _ (hf a g)
    simp [each, ih, hrest]

/-- A relation that holds however memos are filled. -/
structure Respected (R : Graph → Graph → Prop) : Prop where
  refl : ∀ g, R g g
  trans : ∀ {g h k}, R g h → R h k → R g k
  resolve : ∀ n, Leaves R (Query.resolve n false)
  tier : ∀ n, Leaves R (Query.tier n)
  enclosingObjectEntry : ∀ n, Leaves R (Query.enclosingObjectEntry n)

namespace Respected

theorem of_graph_eq (hR : Respected R) (h : ∀ g, (q g).graph = g) : Leaves R q := by
  intro g
  rw [h]
  exact hR.refl g

theorem pure (hR : Respected R) (a : α) : Leaves R (Pure.pure a : Query α) := hR.refl

theorem graph (hR : Respected R) : Leaves R Query.graph := hR.refl

theorem bind (hR : Respected R) {f : α → Query β} (hq : Leaves R q) (hf : ∀ a, Leaves R (f a)) :
    Leaves R (q >>= f) := by
  intro g
  exact hR.trans (hq g) (hf _ _)

theorem each (hR : Respected R) {f : α → Query β} (hf : ∀ a, Leaves R (f a)) (as : List α) :
    Leaves R (Query.each f as) := by
  induction as with
  | nil => exact hR.pure []
  | cons a rest ih => exact hR.bind (hf a) fun b => hR.bind ih fun bs => hR.pure (b :: bs)

theorem tag (hR : Respected R) (n : NodeRef) : Leaves R (Query.tag n false) :=
  hR.bind (hR.resolve n) fun _ => hR.pure _

theorem isShared (hR : Respected R) (n : NodeRef) : Leaves R (Query.isShared n) :=
  hR.bind (hR.tier n) fun _ => hR.bind (hR.tag n) fun _ => hR.pure _

theorem sameTag (hR : Respected R) (a b : NodeRef) : Leaves R (Query.sameTag a b) := by
  refine hR.bind (hR.tag a) fun fa => hR.bind (hR.tag b) fun fb => ?_
  split
  · exact hR.pure true
  · refine hR.bind (hR.isShared a) fun shared => ?_
    split
    · exact hR.isShared b
    · exact hR.pure false

theorem sameTier (hR : Respected R) (a b : NodeRef) : Leaves R (Query.sameTier a b) :=
  hR.bind (hR.tier a) fun _ => hR.bind (hR.tier b) fun _ => hR.pure _

theorem countCallers (hR : Respected R) (entry : NodeRef) (t : Tier) : Leaves R (Query.countCallers entry t) :=
  hR.bind hR.graph fun _ => hR.bind (hR.each hR.tier _) fun _ => hR.pure _

theorem sliceNodes (hR : Respected R) (root : NodeRef) : Leaves R (Query.sliceNodes root) :=
  hR.of_graph_eq (graph_sliceNodes root)

theorem sliceNeighbours (hR : Respected R) (root : NodeRef) (type : EdgeType) (side : Side) :
    Leaves R (Query.sliceNeighbours root type side) :=
  hR.bind hR.graph fun _ => hR.bind (hR.sliceNodes root) fun _ => hR.pure _

theorem countEdges (hR : Respected R) (root : NodeRef) (type : EdgeType) (side : Side) :
    Leaves R (Query.countEdges root type side) :=
  hR.bind (hR.sliceNeighbours root type side) fun _ => hR.pure _

theorem countTagged (hR : Respected R) (root : NodeRef) (type : EdgeType) (t : Tag) (side : Side) :
    Leaves R (Query.countTagged root type t side) :=
  hR.bind (hR.sliceNeighbours root type side) fun _ => hR.bind (hR.each hR.tag _) fun _ => hR.pure _

theorem neighbourTags (hR : Respected R) (root : NodeRef) (type : EdgeType) (side : Side) :
    Leaves R (Query.neighbourTags root type side) :=
  hR.bind (hR.sliceNeighbours root type side) fun _ => hR.bind (hR.each hR.tag _) fun _ => hR.pure _

theorem summarize (hR : Respected R) (root : NodeRef) (mark : SliceMark) : Leaves R (Query.summarize root mark) := by
  unfold Query.summarize
  refine hR.bind (hR.sliceNodes root) fun _ => ?_
  refine hR.bind (hR.countEdges root .remoteData .outgoing) fun _ => ?_
  refine hR.bind (hR.countEdges root .remoteData .incoming) fun _ => ?_
  refine hR.bind (hR.countEdges root .remoteCall .outgoing) fun _ => ?_
  refine hR.bind (hR.neighbourTags root .data .incoming) fun _ => ?_
  exact hR.bind hR.graph fun _ => hR.pure _

theorem summarizeSlices (hR : Respected R) : Leaves R Query.summarizeSlices := by
  unfold Query.summarizeSlices
  refine hR.bind hR.graph fun g => ?_
  apply hR.each
  intro p
  exact hR.summarize p.1 p.2

end Respected

end Query

/-- A query that may leave something on the graph, with all that it is asked about. -/
inductive MemoQuery where
  | resolve (n : NodeRef) (recheck : Bool)
  | tag (n : NodeRef) (recheck : Bool)
  | tier (n : NodeRef)
  | isClient (n : NodeRef)
  | isServer (n : NodeRef)
  | isShared (n : NodeRef)
  | sameTag (a b : NodeRef)
  | sameTier (a b : NodeRef)
  | enclosingObjectEntry (n : NodeRef)
  | serverCalls (entry : NodeRef)
  | clientCalls (entry : NodeRef)
  | countTagged (root : NodeRef) (type : EdgeType) (tag : Tag) (side : Side)
  | neighbourTags (root : NodeRef) (type : EdgeType) (side : Side)
  | classifyProgram
  | summarizeSlices
deriving DecidableEq, Repr

namespace MemoQuery

/-- What the query leaves. -/
def after (g : Graph) : MemoQuery → Graph
  | resolve n recheck => (Query.resolve n recheck g).graph
  | tag n recheck => (Query.tag n recheck g).graph
  | tier n => (Query.tier n g).graph
  | isClient n => (Query.isClient n g).graph
  | isServer n => (Query.isServer n g).graph
  | isShared n => (Query.isShared n g).graph
  | sameTag a b => (Query.sameTag a b g).graph
  | sameTier a b => (Query.sameTier a b g).graph
  | enclosingObjectEntry n => (Query.enclosingObjectEntry n g).graph
  | serverCalls entry => (Query.serverCalls entry g).graph
  | clientCalls entry => (Query.clientCalls entry g).graph
  | countTagged root type t side => (Query.countTagged root type t side g).graph
  | neighbourTags root type side => (Query.neighbourTags root type side g).graph
  | classifyProgram => (Query.classifyProgram g).graph
  | summarizeSlices => (Query.summarizeSlices g).graph

/-- One query after the other. -/
def afterAll (g : Graph) (queries : List MemoQuery) : Graph := queries.foldl after g

/-- The query takes remembered tags for answers and replaces none of them. -/
def reads : MemoQuery → Bool
  | resolve _ recheck | tag _ recheck => !recheck
  | classifyProgram => false
  | tier _ | isClient _ | isServer _ | isShared _ | sameTag _ _ | sameTier _ _ | enclosingObjectEntry _
  | serverCalls _ | clientCalls _ | countTagged _ _ _ _ | neighbourTags _ _ _ | summarizeSlices => true

end MemoQuery

namespace Query.Respected

variable {R : Graph → Graph → Prop}

theorem after (hR : Respected R) {q : MemoQuery} (hq : q.reads = true) (g : Graph) : R g (q.after g) := by
  cases q with
  | resolve n recheck =>
    cases recheck with
    | false => exact hR.resolve n g
    | true => cases hq
  | tag n recheck =>
    cases recheck with
    | false => exact hR.tag n g
    | true => cases hq
  | tier n => exact hR.tier n g
  | isClient n => exact hR.bind (hR.tier n) (fun _ => hR.pure _) g
  | isServer n => exact hR.bind (hR.tier n) (fun _ => hR.pure _) g
  | isShared n => exact hR.isShared n g
  | sameTag a b => exact hR.sameTag a b g
  | sameTier a b => exact hR.sameTier a b g
  | enclosingObjectEntry n => exact hR.enclosingObjectEntry n g
  | serverCalls entry => exact hR.countCallers entry .server g
  | clientCalls entry => exact hR.countCallers entry .client g
  | countTagged root type t side => exact hR.countTagged root type t side g
  | neighbourTags root type side => exact hR.neighbourTags root type side g
  | classifyProgram => cases hq
  | summarizeSlices => exact hR.summarizeSlices g

/-- What every query of a run respects, the run respects. -/
theorem afterAll_of_after (hR : Respected R) {queries : List MemoQuery}
    (hafter : ∀ q ∈ queries, ∀ g, R g (q.after g)) (g : Graph) : R g (MemoQuery.afterAll g queries) := by
  induction queries generalizing g with
  | nil => exact hR.refl g
  | cons q rest ih =>
    obtain ⟨hq, hrest⟩ := List.forall_mem_cons.1 hafter
    exact hR.trans (hq g) (ih hrest (q.after g))

end Query.Respected

end Tierwise
