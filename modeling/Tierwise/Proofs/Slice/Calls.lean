import Tierwise.Proofs.Slice.Enumeration
import Tierwise.Proofs.Walk

/-! # Calls below a node are the calls of its slice, in the same order

One walk drops a node that was seen when it leaves the queue, the other does not queue it a second time; one has seen
the start from the beginning, the other only when a cycle leads back to it. So at every moment the queue of the second
walk is that of the first without what the first will drop.
-/

namespace Tierwise

namespace Arcs

variable {arcs : Arcs} {seen known front back : List NodeRef} {v : NodeRef}

/-- A node that was seen, or that waits further in front, may as well be missing from the queue. -/
theorem order_append_cons (h : v ∈ seen ∨ v ∈ front) :
    arcs.order seen (front ++ v :: back) = arcs.order seen (front ++ back) := by
  induction front generalizing seen back with
  | nil => exact order_cons_of_mem (h.resolve_right List.not_mem_nil)
  | cons u front ih =>
    by_cases hu : u ∈ seen
    · have hv : v ∈ seen ∨ v ∈ front := by
        rcases h with h | h
        · exact .inl h
        · rcases List.mem_cons.1 h with rfl | h
          · exact .inl hu
          · exact .inr h
      rw [List.cons_append, List.cons_append, order_cons_of_mem hu, order_cons_of_mem hu, ih hv]
    · have hv : v ∈ u :: seen ∨ v ∈ front := by
        simp only [List.mem_cons] at h ⊢
        grind
      rw [List.cons_append, List.cons_append, order_cons_of_notMem hu, order_cons_of_notMem hu, List.append_assoc,
        List.cons_append, ih hv, List.append_assoc]

/-- The successors of a node that are not known yet, each once. -/
def fresh (arcs : Arcs) (known : List NodeRef) (v : NodeRef) : List NodeRef :=
  ((arcs.next v).filter fun w => !known.contains w).eraseDups

/-- Of the nodes that are added to a queue, only those matter that are not known, each once. -/
theorem order_append_eraseDups (h : ∀ w ∈ known, w ∈ seen ∨ w ∈ front) (ws : List NodeRef) :
    arcs.order seen (front ++ ws) =
      arcs.order seen (front ++ (ws.filter fun w => !known.contains w).eraseDups) := by
  induction ws generalizing front known with
  | nil => rfl
  | cons w ws ih =>
    by_cases hw : w ∈ known
    · rw [order_append_cons (h w hw), ih h, List.filter_cons_of_neg (by simpa using hw)]
    · have hknown : ∀ u ∈ w :: known, u ∈ seen ∨ u ∈ front ++ [w] := by
        simp only [List.mem_cons, List.mem_append, List.not_mem_nil, or_false]
        grind
      have hfilter : ((ws.filter fun u => !known.contains u).filter fun u => !u == w) =
          ws.filter fun u => !(w :: known).contains u := by
        rw [List.filter_filter]
        congr 1
        funext u
        rw [List.contains_cons, Bool.not_or]
      have hrest := ih hknown
      rw [List.append_assoc, List.append_assoc, List.singleton_append, List.singleton_append] at hrest
      rw [List.filter_cons_of_pos (by simpa using hw), List.eraseDups_cons, hfilter, hrest]

theorem fresh_nil (arcs : Arcs) (v : NodeRef) : arcs.fresh [] v = (arcs.next v).eraseDups := by
  simp [fresh]

theorem fresh_eq_nil (h : ∀ w ∈ arcs.next v, w ∈ known) : arcs.fresh known v = [] := by
  have hnone : ((arcs.next v).filter fun w => !known.contains w) = [] := by
    apply List.filter_eq_nil_iff.2
    intro w hw
    simp [h w hw]
  rw [fresh, hnone, List.eraseDups_nil]

end Arcs

namespace SliceWalk

variable {arcs : Arcs} {root v : NodeRef} {listed queue rest seen : List NodeRef}

/-- One turn of both walks. The root is not listed by the first walk, and the second queues nothing when it lists the
root, since all steps out of it were queued at the start. -/
theorem Sweep.order_step (h : Sweep arcs root listed (v :: rest)) (hseen : ∀ w, w ∈ seen ↔ w = root ∨ w ∈ listed) :
    ∃ seen', (∀ w, w ∈ seen' ↔ w = root ∨ w ∈ listed ++ [v]) ∧
      arcs.order seen (v :: rest) =
        [v].filter (· != root) ++ arcs.order seen' (rest ++ arcs.fresh (listed ++ v :: rest) v) := by
  by_cases hv : v = root
  · subst hv
    refine ⟨seen, fun w => ?_, ?_⟩
    · rw [hseen, List.mem_append, List.mem_singleton]
      grind
    · rw [Arcs.order_cons_of_mem ((hseen v).2 (.inl rfl)), Arcs.fresh_eq_nil (h.closed v (.inl rfl))]
      simp
  · have hnew : v ∉ seen := by
      rw [hseen, not_or]
      refine ⟨hv, fun hlisted => ?_⟩
      exact (List.nodup_append.1 h.nodup).2.2 v hlisted v List.mem_cons_self rfl
    have hknown : ∀ w ∈ listed ++ v :: rest, w ∈ v :: seen ∨ w ∈ rest := by
      simp only [List.mem_append, List.mem_cons, hseen]
      grind
    refine ⟨v :: seen, fun w => ?_, ?_⟩
    · rw [List.mem_cons, hseen, List.mem_append, List.mem_singleton]
      grind
    · rw [Arcs.order_cons_of_notMem hnew, Arcs.order_append_eraseDups hknown, Arcs.fresh]
      simp [hv]

/-- From the same queue both walks list the same nodes, the root apart. -/
theorem Sweep.order_eq (h : Sweep arcs root listed queue) (hseen : ∀ w, w ∈ seen ↔ w = root ∨ w ∈ listed) (limit : Nat)
    (hlimit : (SliceWalk.run arcs limit (listed ++ queue) queue).limited = false) :
    arcs.order seen queue = (SliceWalk.run arcs limit (listed ++ queue) queue).nodes.filter (· != root) := by
  induction limit generalizing listed queue seen with
  | zero =>
    have hnil : queue = [] := by simpa [SliceWalk.run] using hlimit
    rw [hnil, Arcs.order_nil]
    rfl
  | succ limit ih =>
    cases queue with
    | nil => exact Arcs.order_nil
    | cons v rest =>
      obtain ⟨seen', hseen', hstep⟩ := h.order_step hseen
      have hwalk : listed ++ [v] ++ (rest ++ arcs.fresh (listed ++ v :: rest) v) =
          listed ++ v :: rest ++ arcs.fresh (listed ++ v :: rest) v := by simp
      have hrest := ih h.list hseen'
      rw [← Arcs.fresh, hwalk] at hrest
      rw [hstep, hrest hlimit, ← List.filter_append]
      rfl

/-- A walk to everything beyond a node lists what a slice walk lists that is not cut off, the start apart. -/
theorem beyond_eq {limit : Nat}
    (hlimit : (run arcs limit (arcs.next root).eraseDups (arcs.next root).eraseDups).limited = false) :
    arcs.beyond root =
      (run arcs limit (arcs.next root).eraseDups (arcs.next root).eraseDups).nodes.filter (· != root) := by
  have hnone : ∀ w ∈ ([] : List NodeRef), w ∈ [root] ∨ w ∈ ([] : List NodeRef) := List.forall_mem_nil _
  have hseen : ∀ w, w ∈ [root] ↔ w = root ∨ w ∈ ([] : List NodeRef) := by simp
  have hqueue : arcs.order [root] (arcs.next root) = arcs.order [root] (arcs.next root).eraseDups := by
    rw [← Arcs.fresh_nil]
    exact Arcs.order_append_eraseDups hnone (arcs.next root)
  rw [Arcs.beyond, hqueue]
  exact (Sweep.init arcs root).order_eq hseen limit hlimit

end SliceWalk

namespace Graph

variable {g : Graph} {n : NodeRef}

/-- A walk that may list every node below its root is not cut off. -/
theorem limited_sliceWalk (h : {m | g.Below n m}.ncard ≤ g.worklistLimit) : (g.sliceWalk n).limited = false := by
  apply SliceWalk.limited_run_eq_false
  intro listed left hsweep
  have hslice : listed ++ left ⊆ g.slice n := fun m hm => mem_slice_iff.2 (hsweep.leads m hm)
  have hlength := hsweep.nodup.length_le_of_subset hslice
  rw [List.length_append] at hlength
  rw [ncard_below] at h
  omega

/-- Everything below a node is its slice, without the node itself. -/
theorem below_eq_filter_sliceNodes (h : {m | g.Below n m}.ncard ≤ g.worklistLimit) :
    g.below n = (g.sliceNodes n).filter (· != n) :=
  SliceWalk.beyond_eq (limited_sliceWalk h)

/-- Where a slice walk may list every node below its start, the calls below a node are the calls that it lists, in the
same order and without the node itself. -/
theorem callsBelow_eq_sliceNodesWhere (h : {m | g.Below n m}.ncard ≤ g.worklistLimit) :
    g.callsBelow n = (Query.sliceNodesWhere n .call g).value.filter (· != n) := by
  have hcall : NodeTest.call.holds = Node.isCall := rfl
  rw [callsBelow, below_eq_filter_sliceNodes h, Query.value_sliceNodesWhere, hcall, List.filter_filter,
    List.filter_filter]
  congr 1
  funext m
  exact Bool.and_comm _ _

/-- Call 0 leads over several ways to calls 2 and 3, one of which leads back to it. Every node is below call 0, and the
limit is their number. -/
def sharedCalls : Graph :=
  let call := Edit.addCallNode none
  let statement := Edit.addStatement none
  let arcs := [(0, 1), (0, 2), (0, 1), (1, 3), (1, 0), (2, 3), (2, 2), (3, 0), (3, 4), (4, 2)]
  Edit.applyAll empty (.setSettings { Settings.standard with worklistLimit := 5 } ::
    [call, statement, call, call, statement] ++ arcs.map fun a => .addEdge a.1 a.2 .control none)

theorem callsBelow_eq_sliceNodesWhere_sharedCalls :
    sharedCalls.Attained ∧ {m | sharedCalls.Below 0 m}.ncard ≤ sharedCalls.worklistLimit ∧
      (Query.sliceNodesWhere 0 .call sharedCalls).value = [2, 3, 0] ∧ sharedCalls.callsBelow 0 = [2, 3] := by
  have hlimit : {m | sharedCalls.Below 0 m}.ncard ≤ sharedCalls.worklistLimit := by
    rw [ncard_below]
    decide
  have hslice : (Query.sliceNodesWhere 0 .call sharedCalls).value = [2, 3, 0] := by decide
  refine ⟨Attained.empty.applyAll (by decide), hlimit, hslice, ?_⟩
  rw [callsBelow_eq_sliceNodesWhere hlimit, hslice]
  rfl

end Graph

end Tierwise
