import Mathlib.Algebra.Order.BigOperators.Group.Finset
import Mathlib.Algebra.Order.BigOperators.Group.List
import Mathlib.Algebra.Ring.GeomSum
import Tierwise.Proofs.Construction.Change
import Tierwise.Proofs.Demand
import Tierwise.Proofs.Lists

/-! # Searches for a slice root that no limit guards

A marked node may still wait and is expanded again when it is taken, so a turn can lengthen the queue and mark nothing.
What falls with every turn is the sum over the queue of what the nodes in it can lead to: each one to no more routes
than there are over the nodes that will be unmarked once it is taken.
-/

namespace Tierwise

namespace Trail

/-! ### The loop without its limit -/

/-- How a search that no limit guards has ended. -/
structure Ending where
  /-- How many nodes left the queue. -/
  taken : Nat
  /-- The last one of them. -/
  last : Option NodeRef
  /-- The nodes that were left in the queue. -/
  waiting : List NodeRef
deriving DecidableEq, Repr

/-- The turns of the loop of `search` with no limit to end it, from here to the end. A loop that goes on for ever has no
run, as a run is built up from its last turn. -/
inductive Run (arcs : Arcs) (stop : NodeRef → Bool) :
    (taken : Nat) → (queue : Queue NodeRef) → (marked : List NodeRef) → (last : Option NodeRef) → Ending → Prop
  | empty {taken : Nat} {queue : Queue NodeRef} {marked : List NodeRef} {last : Option NodeRef} :
      queue.pop? = none → Run arcs stop taken queue marked last ⟨taken, last, queue.toList⟩
  | stop {taken : Nat} {queue rest : Queue NodeRef} {marked : List NodeRef} {last : Option NodeRef} {v : NodeRef} :
      queue.pop? = some (v, rest) → stop v = true →
        Run arcs stop taken queue marked last ⟨taken + 1, some v, rest.toList⟩
  | pass {taken : Nat} {queue rest : Queue NodeRef} {marked : List NodeRef} {last : Option NodeRef} {v : NodeRef}
      {e : Ending} : queue.pop? = some (v, rest) → stop v = false →
        Run arcs stop (taken + 1) (rest.append ((arcs.next v).filter fun w => !(marked.insert v).contains w))
          (marked.insert v) (some v) e →
        Run arcs stop taken queue marked last e

variable {arcs : Arcs} {stop : NodeRef → Bool} {taken : Nat} {queue rest : Queue NodeRef} {marked : List NodeRef}
  {last : Option NodeRef} {v w : NodeRef} {e : Ending}

/-- A search is over when its queue is empty and no stop was taken, or when the last node that it took is a stop. -/
def Ending.Over (stop : NodeRef → Bool) (e : Ending) : Prop :=
  (e.waiting = [] ∧ ∀ v, e.last = some v → stop v = false) ∨ ∃ v, e.last = some v ∧ stop v = true

theorem Run.over (h : Run arcs stop taken queue marked last e) (hlast : ∀ v, last = some v → stop v = false) :
    e.Over stop := by
  induction h with
  | empty hpop => exact .inl ⟨(Queue.pop?_eq_none_iff _).1 hpop, hlast⟩
  | stop _ hstop => exact .inr ⟨_, rfl, hstop⟩
  | pass _ hstop _ ih =>
    apply ih
    rintro w ⟨⟩
    exact hstop

/-- A limit cuts the search off if it is below what a run takes, and makes no difference otherwise. -/
theorem Run.needs (h : Run arcs stop taken queue marked last e) :
    ∃ k, e.taken = taken + k ∧ Graph.Needs (fun limit => search arcs stop limit queue marked last) k e.last := by
  induction h with
  | empty hpop => exact ⟨0, rfl, Graph.needs_zero (search_of_pop?_eq_none hpop)⟩
  | stop hpop hstop =>
    refine ⟨1, rfl, Graph.needs_succ (by simp [search_zero, hpop]) (Graph.needs_zero fun limit => ?_)⟩
    simp [search_of_pop?_eq_some hpop, hstop]
  | pass hpop hstop _ ih =>
    obtain ⟨k, hk, hneeds⟩ := ih
    refine ⟨k + 1, by omega, Graph.needs_succ (by simp [search_zero, hpop]) ?_⟩
    simpa [search_of_pop?_eq_some hpop, hstop] using hneeds

/-! ### What is left to take -/

/-- `1 + d + ⋯ + d ^ (m - 1)`, the number of routes over fewer than `m` edges where `d` edges lead on from each node. -/
def fan (d m : Nat) : Nat := ∑ i ∈ Finset.range m, d ^ i

theorem fan_succ (d m : Nat) : fan d (m + 1) = d * fan d m + 1 := geom_sum_succ

theorem fan_mono (d : Nat) {m m' : Nat} (h : m ≤ m') : fan d m ≤ fan d m' :=
  Finset.sum_le_sum_of_subset (Finset.range_mono h)

/-- The nodes that are not marked. -/
def unmarked (nodes : Finset NodeRef) (marked : List NodeRef) : Finset NodeRef := nodes.filter (· ∉ marked)

variable {d : Nat} {nodes : Finset NodeRef}

theorem mem_unmarked : v ∈ unmarked nodes marked ↔ v ∈ nodes ∧ v ∉ marked := Finset.mem_filter

theorem unmarked_subset {marked' : List NodeRef} (h : marked ⊆ marked') :
    unmarked nodes marked' ⊆ unmarked nodes marked := by
  intro w hw
  obtain ⟨hnode, hmark⟩ := mem_unmarked.1 hw
  exact mem_unmarked.2 ⟨hnode, fun hmem => hmark (h hmem)⟩

theorem card_unmarked_insert_lt (hv : v ∈ nodes) (hmark : v ∉ marked) :
    (unmarked nodes (marked.insert v)).card < (unmarked nodes marked).card := by
  have hsub : unmarked nodes (marked.insert v) ⊆ unmarked nodes marked :=
    unmarked_subset fun w hw => List.mem_insert_of_mem hw
  apply Finset.card_lt_card
  refine (Finset.ssubset_iff_of_subset hsub).2 ⟨v, mem_unmarked.2 ⟨hv, hmark⟩, fun hmem => ?_⟩
  exact (mem_unmarked.1 hmem).2 List.mem_insert_self

/-- How many nodes a search takes at most on account of a node that waits, where `d` arcs lead on from each node. -/
def weight (d : Nat) (nodes : Finset NodeRef) (marked : List NodeRef) (w : NodeRef) : Nat :=
  -- What counts is what will be unmarked when `w` is taken, whether or not `w` is marked while it waits.
  fan d ((unmarked nodes (marked.insert w)).card + 1)

/-- How many nodes a search takes at most. -/
def potential (d : Nat) (nodes : Finset NodeRef) (marked queue : List NodeRef) : Nat :=
  (queue.map (weight d nodes marked)).sum

theorem weight_insert_le (v w : NodeRef) : weight d nodes (marked.insert v) w ≤ weight d nodes marked w := by
  have hsub : marked.insert w ⊆ (marked.insert v).insert w := by
    intro u hu
    rcases List.mem_insert_iff.1 hu with rfl | hu
    · exact List.mem_insert_self
    · exact List.mem_insert_of_mem (List.mem_insert_of_mem hu)
  exact fan_mono d (Nat.succ_le_succ (Finset.card_le_card (unmarked_subset hsub)))

/-- Each node that is queued unmarked leaves one node less unmarked when it is taken. -/
theorem potential_le_of_unmarked {queued : List NodeRef} (hlength : queued.length ≤ d)
    (hqueued : ∀ w ∈ queued, w ∈ nodes ∧ w ∉ marked) :
    potential d nodes marked queued ≤ d * fan d (unmarked nodes marked).card := by
  have hweight : ∀ x ∈ queued.map (weight d nodes marked), x ≤ fan d (unmarked nodes marked).card := by
    intro x hx
    obtain ⟨w, hw, rfl⟩ := List.mem_map.1 hx
    obtain ⟨hnode, hmark⟩ := hqueued w hw
    exact fan_mono d (card_unmarked_insert_lt hnode hmark)
  calc potential d nodes marked queued
    _ ≤ (queued.map (weight d nodes marked)).length * fan d (unmarked nodes marked).card :=
      List.sum_le_card_nsmul _ _ hweight
    _ = queued.length * fan d (unmarked nodes marked).card := by rw [List.length_map]
    _ ≤ d * fan d (unmarked nodes marked).card := Nat.mul_le_mul_right _ hlength

/-- What is queued when `v` is expanded weighs less than `v` did. -/
theorem potential_expand_lt (marked rest : List NodeRef) (hd : (arcs.next v).length ≤ d)
    (hnodes : ∀ w ∈ arcs.next v, w ∈ nodes) :
    potential d nodes (marked.insert v) (rest ++ (arcs.next v).filter fun w => !(marked.insert v).contains w) <
      potential d nodes marked (v :: rest) := by
  let queued := (arcs.next v).filter fun w => !(marked.insert v).contains w
  let left := (unmarked nodes (marked.insert v)).card
  have hv : weight d nodes marked v = d * fan d left + 1 := fan_succ d left
  have hrest : potential d nodes (marked.insert v) rest ≤ potential d nodes marked rest :=
    List.sum_le_sum fun w _ => weight_insert_le v w
  have hqueued : potential d nodes (marked.insert v) queued ≤ d * fan d left := by
    apply potential_le_of_unmarked ((List.length_filter_le _ _).trans hd)
    intro w hw
    obtain ⟨hnext, hmark⟩ := List.mem_filter.1 hw
    exact ⟨hnodes w hnext, by simpa using hmark⟩
  calc potential d nodes (marked.insert v) (rest ++ queued)
    _ = potential d nodes (marked.insert v) rest + potential d nodes (marked.insert v) queued := by
      simp only [potential, List.map_append, List.sum_append]
    _ < weight d nodes marked v + potential d nodes marked rest := by omega
    _ = potential d nodes marked (v :: rest) := by simp only [potential, List.map_cons, List.sum_cons]

/-- A turn after which the loop goes on lowers the potential. -/
theorem potential_turn_lt (hd : ∀ v, (arcs.next v).length ≤ d) (hnodes : ∀ v, ∀ w ∈ arcs.next v, w ∈ nodes)
    (marked : List NodeRef) (hpop : queue.pop? = some (v, rest)) :
    potential d nodes (marked.insert v)
        (rest.append ((arcs.next v).filter fun w => !(marked.insert v).contains w)).toList <
      potential d nodes marked queue.toList := by
  rw [Queue.toList_append, Queue.toList_of_pop? hpop]
  exact potential_expand_lt marked rest.toList (hd v) (hnodes v)

/-- From wherever the loop stands it comes to its end. -/
theorem exists_run (stop : NodeRef → Bool) (hd : ∀ v, (arcs.next v).length ≤ d)
    (hnodes : ∀ v, ∀ w ∈ arcs.next v, w ∈ nodes) (taken : Nat) (queue : Queue NodeRef) (marked : List NodeRef)
    (last : Option NodeRef) : ∃ e, Run arcs stop taken queue marked last e := by
  -- Neither the queue nor the marked nodes say how far the end is, but the potential does.
  induction hmore : potential d nodes marked queue.toList using Nat.strong_induction_on
    generalizing taken queue marked last with
  | _ more ih =>
    cases hpop : queue.pop? with
    | none => exact ⟨_, .empty hpop⟩
    | some p =>
      obtain ⟨v, rest⟩ := p
      cases hstop : stop v with
      | true => exact ⟨_, .stop hpop hstop⟩
      | false =>
        have hless := potential_turn_lt hd hnodes marked hpop
        rw [hmore] at hless
        obtain ⟨e, he⟩ := ih _ hless (taken + 1) _ _ (some v) rfl
        exact ⟨e, .pass hpop hstop he⟩

/-- A run takes no more nodes than the potential of its queue. -/
theorem Run.taken_le (h : Run arcs stop taken queue marked last e) (hd : ∀ v, (arcs.next v).length ≤ d)
    (hnodes : ∀ v, ∀ w ∈ arcs.next v, w ∈ nodes) : e.taken ≤ taken + potential d nodes marked queue.toList := by
  induction h with
  | empty _ => exact Nat.le_add_right _ _
  | stop hpop _ => exact Nat.add_le_add_left (Nat.zero_lt_of_lt (potential_turn_lt hd hnodes _ hpop)) _
  | @pass _ _ _ marked _ _ _ hpop _ _ ih =>
    have hless := potential_turn_lt hd hnodes marked hpop
    omega

/-! ### Nodes in a row -/

section Row

variable {a b c i m : Nat}

/-- As long as nothing beyond `i` is marked, all `c` arcs out of `i` are followed once more whenever `i` is taken. -/
theorem run_of_level (hstop : ∀ v, stop v = false) (hnext : arcs.next i = List.replicate c (i + 1))
    (hmarked : ∀ w ∈ marked, w ≤ i) (hqueue : queue.toList = List.replicate a i ++ List.replicate b (i + 1)) :
    ∃ queue' marked' last', queue'.toList = List.replicate (b + a * c) (i + 1) ∧ (∀ w ∈ marked', w ≤ i) ∧
      ∀ e, Run arcs stop (taken + a) queue' marked' last' e → Run arcs stop taken queue marked last e := by
  induction a generalizing taken queue marked last b with
  | zero => exact ⟨queue, marked, last, by simpa using hqueue, hmarked, fun _ h => h⟩
  | succ a ih =>
    rw [List.replicate_succ, List.cons_append] at hqueue
    obtain ⟨rest, hpop, hrest⟩ := Queue.exists_pop?_of_toList hqueue
    have hmarked' : ∀ w ∈ marked.insert i, w ≤ i := by
      intro w hw
      rcases List.mem_insert_iff.1 hw with rfl | hw
      · exact Nat.le_refl w
      · exact hmarked w hw
    have hall : ((arcs.next i).filter fun w => !(marked.insert i).contains w) = List.replicate c (i + 1) := by
      rw [hnext, List.filter_eq_self]
      intro w hw
      have hout : i + 1 ∉ marked.insert i := fun hmem => Nat.not_succ_le_self i (hmarked' _ hmem)
      simpa [List.eq_of_mem_replicate hw] using hout
    have hqueue' : (rest.append ((arcs.next i).filter fun w => !(marked.insert i).contains w)).toList =
        List.replicate a i ++ List.replicate (b + c) (i + 1) := by
      rw [Queue.toList_append, hrest, hall, List.append_assoc, List.replicate_append_replicate]
    obtain ⟨queue', marked', last', htoList, hle, hrun⟩ := ih hmarked' hqueue'
    refine ⟨queue', marked', last', ?_, hle, fun e he => .pass hpop (hstop i) (hrun e ?_)⟩
    · rw [htoList, Nat.succ_mul, Nat.add_assoc, Nat.add_comm c]
    · rwa [Nat.add_right_comm, Nat.add_assoc]

/-- Where `d` arcs lead from each of the nodes `i`, …, `m - 1` to the next one and none from `m`, each `i` in the queue
stands for the routes to all of them. -/
theorem exists_run_of_row (taken : Nat) (last : Option NodeRef) (hstop : ∀ v, stop v = false)
    (hnext : ∀ j < m, arcs.next j = List.replicate d (j + 1)) (hend : arcs.next m = []) (k : Nat) (hk : i + k = m)
    (hmarked : ∀ w ∈ marked, w ≤ i) (hqueue : queue.toList = List.replicate a i) :
    ∃ e, Run arcs stop taken queue marked last e ∧ e.taken = taken + a * fan d (k + 1) := by
  induction k generalizing i taken queue marked last a with
  | zero =>
    have hi : arcs.next i = List.replicate 0 (i + 1) := by rwa [← hk] at hend
    obtain ⟨queue', marked', last', htoList, -, hrun⟩ := run_of_level hstop hi hmarked (b := 0) (by simpa using hqueue)
    have hpop : queue'.pop? = none := (Queue.pop?_eq_none_iff queue').2 (by simpa using htoList)
    refine ⟨_, hrun _ (.empty hpop), ?_⟩
    simp [fan]
  | succ k ih =>
    have hi : arcs.next i = List.replicate d (i + 1) := hnext i (by omega)
    obtain ⟨queue', marked', last', htoList, hle, hrun⟩ := run_of_level hstop hi hmarked (b := 0) (by simpa using hqueue)
    rw [Nat.zero_add] at htoList
    obtain ⟨e, he, htaken⟩ :=
      ih (taken + a) last' (by omega) (fun w hw => Nat.le_succ_of_le (hle w hw)) htoList
    refine ⟨e, hrun e he, ?_⟩
    rw [htaken, fan_succ d (k + 1), Nat.mul_succ, ← Nat.mul_assoc, Nat.add_assoc, Nat.add_comm a]

end Row

end Trail

namespace Graph

open Trail

variable {g : Graph} {n v w : NodeRef} {d : Nat}

/-- The search goes from nodes of the graph to nodes of the graph. -/
theorem lt_nodeCount_of_mem_next (h : w ∈ g.provenanceArcs.next v) : v < g.nodeCount ∧ w < g.nodeCount := by
  obtain ⟨e, -, hcross, rfl, rfl⟩ := mem_provenanceArcs.1 (Arcs.mem_next.1 h)
  obtain ⟨-, hends⟩ := Bool.and_eq_true_iff.1 hcross
  cases hsource : g.node? e.source with
  | none => simp [hsource] at hends
  | some source =>
    cases htarget : g.node? e.target with
    | none => simp [hsource, htarget] at hends
    | some target => exact ⟨exists_node?_iff.1 ⟨target, htarget⟩, exists_node?_iff.1 ⟨source, hsource⟩⟩

theorem mem_range_of_mem_next (v : NodeRef) : ∀ w ∈ g.provenanceArcs.next v, w ∈ Finset.range g.nodeCount :=
  fun _ hw => Finset.mem_range.2 (lt_nodeCount_of_mem_next hw).2

theorem length_next_le (hd : ∀ v, (g.crossableInto v).length ≤ d) (v : NodeRef) :
    (g.provenanceArcs.next v).length ≤ d := by
  rw [next_provenanceArcs, List.length_map]
  exact hd v

/-- The first nodes that wait are queued as if `n` had just been taken, so together they weigh less than `n`. -/
theorem potential_next_le (hd : ∀ v, (g.crossableInto v).length ≤ d) :
    potential d (Finset.range g.nodeCount) [n] (g.provenanceArcs.next n) ≤
      ∑ i ∈ Finset.range (g.nodeCount - 1), d ^ (i + 1) := by
  by_cases hn : n < g.nodeCount
  · have hless := potential_expand_lt [] [] (length_next_le hd n) (mem_range_of_mem_next n)
    rw [List.nil_append, List.insert_nil, filter_next_provenanceArcs] at hless
    have hcard : (unmarked (Finset.range g.nodeCount) [n]).card < g.nodeCount :=
      calc (unmarked (Finset.range g.nodeCount) [n]).card
        _ < (unmarked (Finset.range g.nodeCount) []).card :=
          card_unmarked_insert_lt (Finset.mem_range.2 hn) List.not_mem_nil
        _ ≤ g.nodeCount := (Finset.card_filter_le _ _).trans_eq (Finset.card_range _)
    obtain ⟨others, hothers⟩ := Nat.exists_eq_add_of_lt (Nat.zero_lt_of_lt hn)
    apply Nat.le_of_lt_succ
    calc potential d (Finset.range g.nodeCount) [n] (g.provenanceArcs.next n)
      _ < potential d (Finset.range g.nodeCount) [] [n] := hless
      _ = weight d (Finset.range g.nodeCount) [] n := List.sum_singleton
      _ ≤ fan d g.nodeCount := fan_mono d hcard
      _ = ∑ i ∈ Finset.range (g.nodeCount - 1), d ^ (i + 1) + 1 := by
        rw [fan, hothers, Finset.sum_range_succ', pow_zero, Nat.add_sub_cancel, Nat.zero_add]
  · have hnil : g.provenanceArcs.next n = [] :=
      List.eq_nil_iff_forall_not_mem.2 fun w hw => hn (lt_nodeCount_of_mem_next hw).1
    rw [hnil]
    exact Nat.zero_le _

/-- The search for a slice root needs no limit to end: from every node of every graph, and whatever counts as a stop, its
loop comes to an empty queue or to a stop. A limit below the number of nodes that it has taken by then cuts the search
off, and any other limit leaves the answer as it is. Where no more than `d` edges that may be crossed enter a node, it
takes at most `d + ⋯ + d ^ (m - 1)` nodes in a graph of `m` nodes. -/
theorem unguarded_provenance_ends (g : Graph) (stop : NodeRef → Bool) (n : NodeRef) :
    ∃ e, Run g.provenanceArcs stop 0 (.ofList (g.provenanceArcs.next n)) [n] none e ∧ e.Over stop ∧
      Needs (fun limit => search g.provenanceArcs stop limit (.ofList (g.provenanceArcs.next n)) [n] none)
        e.taken e.last ∧
      ∀ d, (∀ v, (g.crossableInto v).length ≤ d) → e.taken ≤ ∑ i ∈ Finset.range (g.nodeCount - 1), d ^ (i + 1) := by
  have hall (v : NodeRef) : (g.crossableInto v).length ≤ g.edges.live.length := List.length_filter_le _ _
  obtain ⟨e, hrun⟩ :=
    exists_run stop (length_next_le hall) mem_range_of_mem_next 0 (.ofList (g.provenanceArcs.next n)) [n] none
  obtain ⟨k, hk, hneeds⟩ := hrun.needs
  rw [Nat.zero_add] at hk
  refine ⟨e, hrun, hrun.over nofun, hk ▸ hneeds, fun d hd => ?_⟩
  calc e.taken
    _ ≤ 0 + potential d (Finset.range g.nodeCount) [n] (Queue.ofList (g.provenanceArcs.next n)).toList :=
      hrun.taken_le (length_next_le hd) mem_range_of_mem_next
    _ = potential d (Finset.range g.nodeCount) [n] (g.provenanceArcs.next n) := by
      rw [Nat.zero_add, Queue.toList_ofList]
    _ ≤ ∑ i ∈ Finset.range (g.nodeCount - 1), d ^ (i + 1) := potential_next_le hd

/-! ### The bound is met -/

/-- The nodes `0`, …, `m` in a row, and `d` edges to each one but the last from the next one. -/
def row (d m : Nat) : Graph :=
  { nodes := Array.replicate (m + 1) { serial := 0, kind := .statement }
    edges := ((List.range m).flatMap (List.replicate d)).foldl (fun s i => s.add (i + 1) i .control none) {} }

theorem ends_live_foldl_add (targets : List NodeRef) (s : EdgeStore) :
    ((targets.foldl (fun s i => s.add (i + 1) i .control none) s).live.map fun e => (e.target, e.source, e.type)) =
      (s.live.map fun e => (e.target, e.source, e.type)) ++ targets.map fun i => (i, i + 1, .control) := by
  induction targets generalizing s with
  | nil => simp
  | cons i targets ih => simp [ih]

theorem node?_row {d m n : Nat} (hn : n ≤ m) : (row d m).node? n = some { serial := 0, kind := .statement } := by
  simp [row, node?, Nat.lt_succ_of_le hn]

theorem crossable_row {d m i : Nat} {e : Edge} (hi : i < m) (htarget : e.target = i) (hsource : e.source = i + 1)
    (htype : e.type = .control) : (row d m).crossable e = true := by
  have hloop : e.isLoop = false := by simp [Edge.isLoop, htarget, hsource]
  rw [crossable, hloop, hsource, htarget, htype, node?_row hi, node?_row hi.le]
  rfl

theorem provenanceArcs_row (d m : Nat) :
    (row d m).provenanceArcs = ((List.range m).flatMap (List.replicate d)).map fun i => (i, i + 1) := by
  let ends (e : Edge) := (e.target, e.source, e.type)
  have hends : (row d m).edges.live.map ends =
      ((List.range m).flatMap (List.replicate d)).map fun i => (i, i + 1, .control) := ends_live_foldl_add _ {}
  have hcross : ∀ e ∈ (row d m).edges.live, (row d m).crossable e = true := by
    intro e he
    have hmem : ends e ∈ (row d m).edges.live.map ends := List.mem_map_of_mem he
    rw [hends] at hmem
    obtain ⟨i, hi, heq⟩ := List.mem_map.1 hmem
    obtain ⟨j, hj, hij⟩ := List.mem_flatMap.1 hi
    rw [List.eq_of_mem_replicate hij] at heq
    obtain ⟨htarget, hsource, htype⟩ : j = e.target ∧ j + 1 = e.source ∧ .control = e.type := by simpa [ends] using heq
    exact crossable_row (List.mem_range.1 hj) htarget.symm hsource.symm htype.symm
  rw [provenanceArcs, List.filter_eq_self.2 hcross]
  have hproj := congrArg (List.map fun p : NodeRef × NodeRef × EdgeType => (p.1, p.2.1)) hends
  simpa [ends, Function.comp_def] using hproj

theorem next_row (d m i : Nat) :
    (row d m).provenanceArcs.next i = List.replicate (if i < m then d else 0) (i + 1) := by
  rw [provenanceArcs_row, Arcs.next, List.filter_map, List.map_map, ← List.count_flatMap_replicate]
  change (List.filter (· == i) _).map (· + 1) = _
  rw [List.filter_beq, List.map_replicate]

theorem isStop_row (d m : Nat) (v : NodeRef) : (row d m).holds Node.isStop v = false := by
  by_cases hv : v ≤ m
  · rw [holds, node?_row hv]
    rfl
  · have hnone : (row d m).node? v = none := by simp [row, node?, Nat.lt_of_not_le hv]
    rw [holds, hnone]
    rfl

/-- The bound on what a search takes is met wherever `d` edges run side by side between neighbours in a row. -/
theorem taken_row (d m : Nat) :
    (row d m).nodeCount = m + 1 ∧ (∀ v, ((row d m).crossableInto v).length ≤ d) ∧
      ∃ e, Run (row d m).provenanceArcs ((row d m).holds Node.isStop) 0 (.ofList ((row d m).provenanceArcs.next 0)) [0]
        none e ∧ e.taken = ∑ i ∈ Finset.range m, d ^ (i + 1) := by
  refine ⟨Array.size_replicate, fun v => ?_, ?_⟩
  · rw [← List.length_map Edge.source, ← next_provenanceArcs, next_row, List.length_replicate]
    split <;> omega
  · cases m with
    | zero =>
      refine ⟨_, .empty ?_, rfl⟩
      simp [Queue.pop?_eq_none_iff, next_row]
    | succ m =>
      have hnext : ∀ i < m + 1, (row d (m + 1)).provenanceArcs.next i = List.replicate d (i + 1) := by
        intro i hi
        rw [next_row, if_pos hi]
      have hend : (row d (m + 1)).provenanceArcs.next (m + 1) = [] := by
        rw [next_row, if_neg (Nat.lt_irrefl _), List.replicate_zero]
      have hqueue : (Queue.ofList ((row d (m + 1)).provenanceArcs.next 0)).toList = List.replicate d 1 := by
        rw [Queue.toList_ofList, hnext 0 (Nat.succ_pos m)]
      have hmarked : ∀ w ∈ [0], w ≤ 1 := by simp
      obtain ⟨e, hrun, htaken⟩ :=
        exists_run_of_row 0 none (isStop_row d (m + 1)) hnext hend m (Nat.add_comm 1 m) hmarked hqueue
      refine ⟨e, hrun, ?_⟩
      rw [htaken, Nat.zero_add, fan, Finset.mul_sum]
      simp only [pow_succ']

end Graph

end Tierwise
