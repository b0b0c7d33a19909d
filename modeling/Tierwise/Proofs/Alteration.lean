import Tierwise.Proofs.Construction.Change

/-! # What an operation does to the nodes, one by one

An operation may write memos, and then it makes one node, alters one node, or leaves them all. Whatever the altering
function leaves alone in a node is the same after the operation as before, on every node of the graph.
-/

namespace Tierwise

/-- The kind of a node to which nothing has been done yet. -/
def NodeKind.Fresh : NodeKind → Prop
  | entry state => state = {}
  | objectEntry state => state = {}
  | _ => True

/-- Nothing happens to a node that is no call. -/
def Node.giveArity (arity : Arity) (a : Node) : Node :=
  match a.kind with
  | .call _ => { a with kind := .call (some arity) }
  | _ => a

namespace Edit

/-- The node that the operation alters, memos aside, and how it does so. -/
def alteration? (g : Graph) : Edit → Option (NodeRef × (Node → Node))
  | markRoot n => some (n, fun a => { a with isRoot := true })
  | markObjectRoot n => some (n, fun a => { a with isObjectRoot := true })
  | addExceptionExit entry exit => some (entry, Node.modifyEntry fun s =>
      if s.exceptionExits.contains exit then s else { s with exceptionExits := s.exceptionExits ++ [exit] })
  | setIsConstructor entry flag => some (entry, Node.modifyEntry fun s => { s with isConstructor := flag })
  | addCall entry call => some (entry, Node.modifyEntry (EntryState.recordCall (Query.tier call g).value))
  | addMember object name member => some (object, Node.modifyObject (·.bind name member))
  | setConstructorNode object node => some (object, Node.modifyObject fun s => { s with constructorNode := some node })
  | setArity call arity => some (call, Node.giveArity arity)
  | _ => none

/-- The graph with the memos that the operation leaves. A call that is recorded asks for the tier of its caller. -/
def noted (g : Graph) : Edit → Graph
  | addCall entry call =>
    match g.expect entry (·.entryState?.isSome) .entry with
    | .ok _ => (Query.tier call g).graph
    | .error _ => g
  | forget n => g.forget n
  | forgetAll => g.forgetAll
  | ask query => query.after g
  | _ => g

/-- What becomes of the nodes. -/
inductive Outcome (g : Graph) (e : Edit) : Array Node → Prop
  | kept : Outcome g e (e.noted g).nodes
  | made {kind : NodeKind} {construct : Option Construct} : kind.Fresh → e.noted g = g →
      Outcome g e (g.nodes.push { serial := g.serial + 1, kind, construct })
  | altered {n : NodeRef} {f : Node → Node} : e.alteration? g = some (n, f) →
      Outcome g e ((e.noted g).modifyNode n f).nodes

end Edit

theorem Node.giveArity_of_isCall {a : Node} {arity : Arity} (ha : a.isCall = true) :
    a.giveArity arity = { a with kind := .call (some arity) } := by
  obtain ⟨serial, kind⟩ := a
  cases kind with
  | call => rfl
  | entry | objectEntry | statement | formal | actual | exit | slice => cases ha

namespace Graph

theorem modifyNode_congr {g : Graph} {n : NodeRef} {f f' : Node → Node} (h : ∀ a, g.node? n = some a → f a = f' a) :
    g.modifyNode n f = g.modifyNode n f' := by
  unfold modifyNode
  congr 1
  apply Array.ext_getElem?
  intro m
  simp only [Array.getElem?_modify]
  split
  · rename_i hnm
    subst hnm
    cases ha : g.nodes[n]? with
    | none => rfl
    | some a => rw [Option.map_some, Option.map_some, h a ha]
  · rfl

theorem nodes_addEdgesOut (g : Graph) (source : NodeRef) (ends : List (NodeRef × EdgeType × Option String)) :
    (g.addEdgesOut source ends).2.nodes = g.nodes := by
  induction ends generalizing g with
  | nil => rfl
  | cons x rest ih => exact ih _

theorem nodes_addEdgesIn (g : Graph) (target : NodeRef) (ends : List (NodeRef × EdgeType)) :
    (g.addEdgesIn target ends).2.nodes = g.nodes := by
  induction ends generalizing g with
  | nil => rfl
  | cons x rest ih => exact ih _

end Graph

namespace Edit

variable {g : Graph} {e : Edit}

theorem outcome_addSlice (hnoted : e.noted g = g) (mark : SliceMark) : e.Outcome g (g.addSlice mark).2.nodes := by
  unfold Graph.addSlice
  by_cases hfound : (g.find? ("C" ++ mark.tag.text)).isSome = true
  · simp only [hfound, if_true]
    have hkept : e.Outcome g (e.noted g).nodes := .kept
    rwa [hnoted] at hkept
  · simp only [hfound]
    exact @Outcome.made g e (.slice mark) none trivial hnoted

/-- Every operation, whether it succeeds or is refused, has one of the three outcomes. -/
theorem outcome_apply (g : Graph) (e : Edit) : e.Outcome g (e.apply g).nodes := by
  cases e with
  | addEntry | addObjectEntry => exact .made rfl rfl
  | addCallNode | addStatement | addFormal | addActual | addExit => exact .made trivial rfl
  | addSliceRoot tag tier => exact outcome_addSlice rfl _
  | addTierRoot tier => exact outcome_addSlice rfl _
  | ensureTierRoot tier =>
    simp only [apply, Graph.ensureTierRoot]
    split
    · exact .kept
    · exact outcome_addSlice rfl _
  | markRoot | markObjectRoot => exact .altered rfl
  | addEdge | removeOut | removeIn | forget | forgetAll | ask => exact .kept
  | addEdgesOut source ends =>
    rw [apply, Graph.nodes_addEdgesOut]
    exact .kept
  | addEdgesIn target ends =>
    rw [apply, Graph.nodes_addEdgesIn]
    exact .kept
  | addExceptionExit entry exit =>
    simp only [apply, Graph.addExceptionExit]
    split
    · exact .kept
    · exact .kept
    · exact .altered rfl
  | setIsConstructor entry flag =>
    simp only [apply, Graph.setIsConstructor]
    split
    · exact .kept
    · exact .altered rfl
  | addCall entry call =>
    cases hentry : g.expect entry (·.entryState?.isSome) .entry with
    | error err =>
      have hnoted : (addCall entry call).noted g = g := by simp [noted, hentry]
      have hkept : (addCall entry call).Outcome g ((addCall entry call).noted g).nodes := .kept
      simpa [apply, Query.addCall, hentry, hnoted] using hkept
    | ok _ =>
      have hnoted : (addCall entry call).noted g = (Query.tier call g).graph := by simp [noted, hentry]
      have haltered : (addCall entry call).Outcome g (((addCall entry call).noted g).modifyNode entry
        (Node.modifyEntry (EntryState.recordCall (Query.tier call g).value))).nodes := .altered rfl
      simpa [apply, Query.addCall, Query.edit, hentry, hnoted] using haltered
  | addMember object name member =>
    simp only [apply, Graph.addMember]
    split
    · exact .kept
    · exact .altered rfl
  | setConstructorNode object node =>
    simp only [apply, Graph.setConstructorNode]
    split
    · exact .kept
    · exact .altered rfl
  | setArity call arity =>
    simp only [apply, Graph.setArity]
    split
    · exact .kept
    · rename_i hcall
      have harity : (g.modifyNode call fun a => { a with kind := .call (some arity) }) =
          g.modifyNode call (Node.giveArity arity) := by
        apply Graph.modifyNode_congr
        intro a ha
        exact (Node.giveArity_of_isCall (Graph.of_expect_eq_ok hcall ha)).symm
      rw [harity]
      exact .altered rfl
  | setSettings settings =>
    simp only [apply, Graph.setSettings]
    split <;> exact .kept

theorem forgetAll_noted (g : Graph) (e : Edit) : (e.noted g).forgetAll = g.forgetAll := by
  cases e with
  | addCall entry call =>
    simp only [noted]
    split
    · exact (Query.faithful_tier call g).1
    · rfl
  | forget n => exact g.forgetAll_modifyMemo n _
  | forgetAll => exact g.forgetAll_forgetAll
  | ask query => exact (MemoQuery.refreshed_after g query).1
  | _ => rfl

/-! ### What stays -/

variable {α : Type} {p : Node → α} {d : α} {nodes : Array Node}

theorem map_node?_noted (hp : Node.MemoFree p) (g : Graph) (e : Edit) (n : NodeRef) :
    ((e.noted g).node? n).map p = (g.node? n).map p := by
  have hbare : ∀ h : Graph, (h.forgetAll.node? n).map p = (h.node? n).map p := by
    intro h
    rw [Graph.node?_forgetAll, Option.map_map]
    congr 1
    funext a
    exact hp _ a
  rw [← hbare, forgetAll_noted, hbare]

theorem view_of_outcome (h : e.Outcome g nodes) (hp : Node.MemoFree p)
    (hd : ∀ serial kind construct, NodeKind.Fresh kind → p { serial, kind, construct } = d)
    (hf : ∀ m f a, e.alteration? g = some (m, f) → p (f a) = p a) (n : NodeRef) :
    (nodes[n]?.map p).getD d = ((g.node? n).map p).getD d := by
  cases h with
  | kept =>
    change (((e.noted g).node? n).map p).getD d = _
    rw [map_node?_noted hp]
  | made hfresh _ =>
    rw [Array.getElem?_push]
    by_cases hn : n = g.nodes.size
    · simp [hn, Graph.node?, hd _ _ _ hfresh]
    · rw [if_neg hn]
      rfl
  | @altered m f ha =>
    change ((((e.noted g).modifyNode m f).node? n).map p).getD d = _
    rw [Graph.node?_modifyNode, ← map_node?_noted hp g e]
    split
    · rw [Option.map_map]
      congr 2
      funext a
      exact hf m f a ha
    · rfl

/-- A question that is blind to memos and to the alteration, and has one answer on all fresh nodes, has the same answer
after the operation as before. The answer for fresh nodes also stands for nodes that are not there. -/
theorem view_apply (hp : Node.MemoFree p)
    (hd : ∀ serial kind construct, NodeKind.Fresh kind → p { serial, kind, construct } = d)
    (hf : ∀ m f a, e.alteration? g = some (m, f) → p (f a) = p a) (n : NodeRef) :
    (((e.apply g).node? n).map p).getD d = ((g.node? n).map p).getD d :=
  view_of_outcome (outcome_apply g e) hp hd hf n

theorem memo_of_alteration {m : NodeRef} {f : Node → Node} (h : e.alteration? g = some (m, f)) (a : Node) :
    (f a).memo = a.memo := by
  obtain ⟨serial, kind⟩ := a
  cases e <;> simp only [alteration?, Option.some.injEq, Prod.mk.injEq, reduceCtorEq] at h <;>
    obtain ⟨-, rfl⟩ := h <;> cases kind <;> rfl

theorem memo_of_outcome (h : e.Outcome g nodes) (n : NodeRef) :
    (nodes[n]?.map Node.memo).getD {} = (e.noted g).memo n := by
  cases h with
  | kept => rfl
  | made _ hnoted =>
    rw [Array.getElem?_push, hnoted]
    by_cases hn : n = g.nodes.size
    · simp [hn, Graph.memo, Graph.node?]
    · rw [if_neg hn]
      rfl
  | @altered m f ha =>
    change ((((e.noted g).modifyNode m f).node? n).map Node.memo).getD {} = _
    rw [Graph.node?_modifyNode, Graph.memo]
    split
    · rw [Option.map_map]
      congr 2
      funext a
      exact memo_of_alteration ha a
    · rfl

/-- Memos change only as the operation notes them. -/
theorem memo_apply (g : Graph) (e : Edit) (n : NodeRef) : (e.apply g).memo n = (e.noted g).memo n :=
  memo_of_outcome (outcome_apply g e) n

end Edit

end Tierwise
