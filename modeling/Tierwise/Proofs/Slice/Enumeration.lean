import Tierwise.Proofs.Demand
import Tierwise.Proofs.Edit
import Tierwise.Proofs.Slice.Walk

/-! # The whole slice in one list

A walk never goes back on what it has listed, so a smaller limit leaves a shorter piece of the same list, and a limit of
as many nodes as there are below the root leaves all of it. Every node of the slice is listed once, and every edge is
seen by one node on each side, so counting what the nodes see counts the edges.
-/

namespace Tierwise

namespace SliceWalk

variable {arcs : Arcs} {root : NodeRef} {limit limit' : Nat} {seen queue : List NodeRef}

/-- A walk under a smaller limit lists the first nodes of the same list. -/
theorem nodes_run_eq_take (h : limit ≤ limit') :
    (run arcs limit seen queue).nodes = (run arcs limit' seen queue).nodes.take limit := by
  induction limit generalizing limit' seen queue with
  | zero => simp [run]
  | succ limit ih =>
    obtain ⟨more, rfl⟩ := Nat.exists_eq_add_of_lt h
    cases queue with
    | nil => simp [run]
    | cons v rest => simp only [run, List.take_succ_cons, ih (Nat.le_add_right limit more)]

/-- A walk that is cut off lists as many nodes as its limit allows. -/
theorem length_nodes_of_limited (h : (run arcs limit seen queue).limited = true) :
    (run arcs limit seen queue).nodes.length = limit := by
  induction limit generalizing seen queue with
  | zero => rfl
  | succ limit ih =>
    cases queue with
    | nil => cases h
    | cons v rest => simp only [run, List.length_cons, ih h]

theorem Sweep.length_le {listed : List NodeRef} (h : Sweep arcs root listed queue) :
    listed.length + queue.length ≤ arcs.length := by
  have htargets : listed ++ queue ⊆ arcs.map Prod.snd := by
    intro v hv
    obtain ⟨u, -, ha⟩ := Relation.TransGen.tail'_iff.1 (h.leads v hv)
    exact List.mem_map.2 ⟨(u, v), ha, rfl⟩
  have hlength := h.nodup.length_le_of_subset htargets
  rwa [List.length_append, List.length_map] at hlength

/-- A walk is not cut off under a limit of as many nodes as there can be in one of its states. -/
theorem limited_run_eq_false (h : ∀ listed left, Sweep arcs root listed left → listed.length + left.length ≤ limit) :
    (run arcs limit (arcs.next root).eraseDups (arcs.next root).eraseDups).limited = false := by
  obtain ⟨left, hsweep, hlimited⟩ := (Sweep.init arcs root).run limit
  rw [List.nil_append, List.nil_append] at *
  rw [Bool.eq_false_iff]
  intro hcut
  have hleft : left ≠ [] := by simpa [hcut] using hlimited
  have hfull := length_nodes_of_limited hcut
  have hlength := h _ _ hsweep
  have hpos := List.length_pos_iff.2 hleft
  omega

/-- Under a limit of as many nodes as there are arcs, a walk goes on until no node waits. -/
theorem Sweep.of_length_le (arcs : Arcs) (root : NodeRef) (h : arcs.length ≤ limit) :
    Sweep arcs root (SliceWalk.run arcs limit (arcs.next root).eraseDups (arcs.next root).eraseDups).nodes [] := by
  obtain ⟨left, hsweep, hlimited⟩ := (Sweep.init arcs root).run limit
  rw [List.nil_append, List.nil_append] at *
  rw [limited_run_eq_false fun _ _ hstate => Nat.le_trans hstate.length_le h] at hlimited
  have hleft : left = [] := by simpa using hlimited.symm
  rwa [hleft] at hsweep

end SliceWalk

namespace Graph

variable {g : Graph} {root n : NodeRef} {s : Settings}

/-- The nodes below `root` in the order of a walk that is not cut off. -/
def slice (g : Graph) (root : NodeRef) : List NodeRef :=
  let arcs := g.arcs .control
  let first := (arcs.next root).eraseDups
  (SliceWalk.run arcs arcs.length first first).nodes

theorem sweep_slice (g : Graph) (root : NodeRef) : SliceWalk.Sweep (g.arcs .control) root (g.slice root) [] :=
  .of_length_le (g.arcs .control) root (Nat.le_refl _)

theorem nodup_slice (g : Graph) (root : NodeRef) : (g.slice root).Nodup := by
  simpa using (g.sweep_slice root).nodup

theorem mem_slice_iff : n ∈ g.slice root ↔ g.Below root n := (g.sweep_slice root).mem_listed_iff

theorem ncard_below (g : Graph) (root : NodeRef) : {n | g.Below root n}.ncard = (g.slice root).length :=
  (g.nodup_slice root).ncard_eq_length fun _ => mem_slice_iff

/-- What a walk lists is the beginning of the slice. -/
theorem sliceNodes_eq_take (g : Graph) (root : NodeRef) : g.sliceNodes root = (g.slice root).take g.worklistLimit := by
  rcases Nat.le_total g.worklistLimit (g.arcs .control).length with hle | hle
  · exact SliceWalk.nodes_run_eq_take hle
  · -- Neither limit cuts the walk off, so both lists are whole.
    have hlength : (g.sliceNodes root).length ≤ (g.arcs .control).length :=
      (SliceWalk.Sweep.of_length_le (g.arcs .control) root hle).length_le
    have hwhole : g.slice root = g.sliceNodes root := by
      have htake : g.slice root = (g.sliceNodes root).take (g.arcs .control).length := SliceWalk.nodes_run_eq_take hle
      rwa [List.take_of_length_le hlength] at htake
    rw [hwhole, List.take_of_length_le (Nat.le_trans hlength hle)]

/-- A limit of as many nodes as there are below the root is enough. -/
theorem sliceNodes_eq_slice (h : {n | g.Below root n}.ncard ≤ g.worklistLimit) : g.sliceNodes root = g.slice root := by
  rw [ncard_below] at h
  rw [sliceNodes_eq_take, List.take_of_length_le h]

/-! ### Edges -/

variable {side : Side} {type : EdgeType} {ns : List NodeRef}

/-- What the nodes of a list see on one side are the live edges with that end in the list. -/
theorem length_flatMap_edgesAt (hns : ns.Nodup) :
    (ns.flatMap fun n => g.edgesAt side n (some type)).length =
      {e | e ∈ g.edges.live ∧ e.type = type ∧ e.near side ∈ ns}.ncard := by
  symm
  apply (nodup_flatMap_edgesAt hns g side _).ncard_eq_length
  intro e
  simp only [List.mem_flatMap, mem_edgesAt_some, Set.mem_ofPred_eq]
  constructor
  · rintro ⟨n, hn, hlive, rfl, htype⟩
    exact ⟨hlive, htype, hn⟩
  · rintro ⟨hlive, htype, hnear⟩
    exact ⟨e.near side, hnear, hlive, rfl, htype⟩

/-- One list has every node below the root once, and the root itself if control edges lead back to it. Under any limit a
walk lists the first nodes of it, as many as the limit says. Under a limit of as many nodes as there are below the root
it lists all of them, and the edges that are counted on a side are the live edges with that end below the root. -/
theorem slice_enumeration_exact (g : Graph) (root : NodeRef) :
    ∃ whole : List NodeRef, whole.Nodup ∧ (∀ n, n ∈ whole ↔ g.Below root n) ∧
      (∀ s, (Query.sliceNodes root (g.under s)).value = whole.take s.worklistLimit.toNat) ∧
      ∀ s : Settings, {n | g.Below root n}.ncard ≤ s.worklistLimit.toNat →
        (Query.sliceNodes root (g.under s)).value = whole ∧
          ∀ type side, (Query.countEdges root type side (g.under s)).value =
            {e | e ∈ g.edges.live ∧ e.type = type ∧ g.Below root (e.near side)}.ncard := by
  refine ⟨g.slice root, g.nodup_slice root, fun n => mem_slice_iff, fun s => ?_, fun s hs => ?_⟩
  · rw [Query.value_sliceNodes]
    exact (g.under s).sliceNodes_eq_take root
  · have hwhole : (g.under s).sliceNodes root = g.slice root := sliceNodes_eq_slice hs
    refine ⟨by rw [Query.value_sliceNodes, hwhole], fun type side => ?_⟩
    rw [Query.value_countEdges, countEdges, hwhole]
    simp only [← mem_slice_iff]
    exact length_flatMap_edgesAt (g.nodup_slice root)

/-- Two control edges lead from the root to node 1, which controls itself and node 2, and node 2 leads back to the root.
Data flows between nodes 1 and 2 in both directions, and from outside into node 1. -/
def roundabout : Graph :=
  Edit.applyAll empty [.addTierRoot .client, .addStatement none, .addStatement none, .addStatement none,
    .addEdge 0 1 .control none, .addEdge 0 1 .control none, .addEdge 1 1 .control none, .addEdge 1 2 .control none,
    .addEdge 2 0 .control none, .addEdge 1 2 .data none, .addEdge 2 1 .data none, .addEdge 3 1 .data none]

theorem slice_enumeration_exact_roundabout :
    roundabout.Attained ∧ {n | roundabout.Below 0 n}.ncard = 3 ∧ roundabout.Below 0 0 ∧
      (Query.sliceNodes 0 (roundabout.under { Settings.standard with worklistLimit := 2 })).value = [1, 2] ∧
      {e | e ∈ roundabout.edges.live ∧ e.type = .data ∧ roundabout.Below 0 (e.near .outgoing)}.ncard = 2 ∧
      {e | e ∈ roundabout.edges.live ∧ e.type = .data ∧ roundabout.Below 0 (e.near .incoming)}.ncard = 3 := by
  obtain ⟨whole, -, hmem, htake, hwhole⟩ := slice_enumeration_exact roundabout 0
  have hcard : {n | roundabout.Below 0 n}.ncard = 3 := by
    rw [ncard_below]
    decide
  have hlimit : {n | roundabout.Below 0 n}.ncard ≤ Settings.standard.worklistLimit.toNat := by
    rw [hcard]
    decide
  obtain ⟨hlist, hcount⟩ := hwhole Settings.standard hlimit
  have hlisted : whole = [1, 2, 0] := hlist.symm.trans (by decide)
  refine ⟨Attained.empty.applyAll (by decide), hcard, (hmem 0).1 (by simp [hlisted]), ?_, ?_, ?_⟩
  · rw [htake, hlisted]
    rfl
  · rw [← hcount .data .outgoing]
    decide
  · rw [← hcount .data .incoming]
    decide

end Graph

end Tierwise
