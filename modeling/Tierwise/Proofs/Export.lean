import Tierwise.Proofs.Construction
import Tierwise.Proofs.Edge.Ledger
import Tierwise.Proofs.Lists

/-! # The graph seen from outside is all of the graph

An edge always joins two nodes that are there, so every live edge is listed under its source, and under no other node.
Ids lead back to the nodes, and the counts by type are counts of what is listed.
-/

namespace Tierwise

/-- What an exported edge says about the graph, once its ends are looked up. -/
def EdgeRecord.readBack (g : Graph) (r : EdgeRecord) : Option NodeRef × Option NodeRef × EdgeType × Option String :=
  (g.find? r.source, g.find? r.target, r.type, r.label)

/-- The snapshot has every node and every live edge of the graph once. -/
structure Snapshot.Renders (x : Snapshot) (g : Graph) : Prop where
  node : ∀ n, x.nodes[n]? = (g.node? n).map NodeRecord.ofNode
  serial_lt : x.nodes.Pairwise fun a b => a.serial < b.serial
  nodup_ids : (x.nodes.map NodeRecord.id).Nodup
  edges : (x.edges.map (EdgeRecord.readBack g)).Perm
    (g.edges.live.map fun e => (some e.source, some e.target, e.type, g.edgeLabel? e.index))
  /-- The edges that leave a node stand together, between those of older nodes and those of newer ones. -/
  block : ∀ n, n < g.nodeCount → ∃ older newer,
    x.edges = older ++ (g.outEdges n).map (EdgeRecord.ofEdge g) ++ newer ∧
      (∀ r ∈ older, ∃ m, m < n ∧ g.find? r.source = some m) ∧ ∀ r ∈ newer, ∃ m, n < m ∧ g.find? r.source = some m

/-- The numbers are those of the snapshot. -/
structure Stats.Counts (s : Stats) (x : Snapshot) : Prop where
  nodes : s.nodes = x.nodes.length
  edges : s.edges = x.edges.length
  control : s.control = x.edges.countP (·.type = .control)
  data : s.data = x.edges.countP (·.type = .data)
  call : s.call = x.edges.countP (·.type = .call)
  remote : s.remote = x.edges.countP fun r => r.type = .remoteCall ∨ r.type = .remoteData
  object : s.object = x.edges.countP fun r => r.type = .member ∨ r.type = .prototype
  /-- Every edge is counted under one type. -/
  total : s.control + s.data + s.call + s.remote + s.object = s.edges

/-! ### Edges join nodes of the graph -/

/-- An edge on the list was on it before, or the operation named both of its ends. -/
theorem Edit.mem_record {g : Graph} {ledger : List Edge} {e : Edit} {d : Edge} (hd : d ∈ e.record g ledger) :
    d ∈ ledger ∨ d.source ∈ e.handles ∧ d.target ∈ e.handles := by
  cases e with
  | addEdge source target type label =>
    rcases List.mem_append.1 hd with hd | hd
    · exact .inl hd
    · rw [List.mem_singleton.1 hd]
      exact .inr ⟨by simp [handles], by simp [handles]⟩
  | addEdgesOut source ends =>
    rcases List.mem_append.1 hd with hd | hd
    · exact .inl hd
    · obtain ⟨p, hp, rfl⟩ := List.mem_map.1 hd
      exact .inr ⟨List.mem_cons_self, List.mem_cons_of_mem _ (List.mem_map_of_mem (List.of_mem_zip hp).2)⟩
  | addEdgesIn target ends =>
    rcases List.mem_append.1 hd with hd | hd
    · exact .inl hd
    · obtain ⟨p, hp, rfl⟩ := List.mem_map.1 hd
      exact .inr ⟨List.mem_cons_of_mem _ (List.mem_map_of_mem (List.of_mem_zip hp).2), List.mem_cons_self⟩
  | addMember object name member =>
    simp only [record] at hd
    split at hd
    · rcases List.mem_append.1 hd with hd | hd
      · exact .inl hd
      · rw [List.mem_singleton.1 hd]
        exact .inr ⟨by simp [handles], by simp [handles]⟩
    · exact .inl hd
  | removeOut source target type => exact .inl (List.mem_filter.1 hd).1
  | removeIn target source type => exact .inl (List.mem_filter.1 hd).1
  | _ => exact .inl hd

namespace Graph

variable {g h : Graph}

theorem Change.size_le (hgh : g.Change h) : g.nodes.size ≤ h.nodes.size := by
  cases hgh with
  | rework hgh => exact Nat.le_of_eq hgh.size.symm
  | skip => exact Nat.le_refl _
  | add => simp [addNode]

theorem Attained.ends_lt (hg : g.Attained) :
    ∀ d ∈ g.edges.live, d.source < g.nodes.size ∧ d.target < g.nodes.size := by
  induction hg with
  | empty =>
    intro d hd
    cases hd
  | withSettings hs =>
    intro d hd
    rw [(Initial.withSettings hs).eq_blank] at hd
    cases hd
  | @edit g e _ hwithin ih =>
    intro d hd
    have hsize := (Edit.change_apply hwithin).size_le
    rw [Edit.live_apply] at hd
    rcases Edit.mem_record hd with hd | ⟨hsource, htarget⟩
    · exact ⟨Nat.lt_of_lt_of_le (ih d hd).1 hsize, Nat.lt_of_lt_of_le (ih d hd).2 hsize⟩
    · exact ⟨Nat.lt_of_lt_of_le (hwithin _ hsource) hsize, Nat.lt_of_lt_of_le (hwithin _ htarget) hsize⟩

/-! ### Edges by source -/

/-- Every live edge is listed under its source and under no other node. -/
theorem perm_flatMap_outEdges (hends : ∀ d ∈ g.edges.live, d.source < g.nodes.size) :
    ((List.range g.nodes.size).flatMap fun n => g.outEdges n).Perm g.edges.live := by
  have hnodup : ((List.range g.nodes.size).flatMap fun n => g.outEdges n).Nodup :=
    nodup_flatMap_edgesAt List.nodup_range g .outgoing none
  rw [List.perm_ext_iff_of_nodup hnodup g.edges.nodup_live]
  intro d
  rw [List.mem_flatMap]
  constructor
  · rintro ⟨n, -, hd⟩
    exact (mem_edgesAt.1 hd).1
  · intro hd
    exact ⟨d.source, List.mem_range.2 (hends d hd), mem_edgesAt.2 ⟨hd, rfl, .inl rfl⟩⟩

theorem Built.find?_idOf (hg : g.Built) {n : NodeRef} (hn : n < g.nodes.size) : g.find? (g.idOf n) = some n := by
  obtain ⟨a, ha⟩ := exists_node?_iff.2 hn
  exact (hg.find?_iff _ n).2 ⟨a, ha, by simp [idOf, ha]⟩

theorem edgeLabel?_of_mem_live {d : Edge} (hd : d ∈ g.edges.live) : g.edgeLabel? d.index = d.label := by
  have hedge : g.edge? d.index = some d := EdgeStore.get?_eq_some_iff.2 ⟨hd, rfl⟩
  rw [edgeLabel?, hedge, Option.bind_some]

theorem Attained.readBack_ofEdge (hg : g.Attained) {d : Edge} (hd : d ∈ g.edges.live) :
    (EdgeRecord.ofEdge g d).readBack g = (some d.source, some d.target, d.type, g.edgeLabel? d.index) := by
  obtain ⟨hsource, htarget⟩ := hg.ends_lt d hd
  rw [EdgeRecord.readBack, EdgeRecord.ofEdge, hg.built.find?_idOf hsource, hg.built.find?_idOf htarget,
    edgeLabel?_of_mem_live hd]

/-! ### The snapshot -/

theorem Built.nodes_snapshot (hg : g.Built) : g.snapshot.nodes = g.nodes.toList.map NodeRecord.ofNode := by
  have hnodes : (List.range g.nodes.size).filterMap g.node? = g.nodes.toList := by
    have hlist := List.filterMap_getElem?_range g.nodes.toList
    simp only [Array.getElem?_toList, Array.length_toList] at hlist
    exact hlist
  rw [snapshot, hg.nodeRefs_eq, hnodes]

theorem Built.edges_snapshot (hg : g.Built) : g.snapshot.edges =
    ((List.range g.nodes.size).flatMap fun n => g.outEdges n).map (EdgeRecord.ofEdge g) := by
  rw [snapshot, hg.nodeRefs_eq]

/-- A record of an edge of some nodes leads back to one of them. -/
theorem Attained.exists_source (hg : g.Attained) {ns : List NodeRef} {r : EdgeRecord}
    (hr : r ∈ (ns.flatMap fun n => g.outEdges n).map (EdgeRecord.ofEdge g)) :
    ∃ m ∈ ns, g.find? r.source = some m := by
  obtain ⟨d, hd, rfl⟩ := List.mem_map.1 hr
  obtain ⟨m, hm, hd⟩ := List.mem_flatMap.1 hd
  obtain ⟨hlive, hsource, -⟩ := mem_edgesAt.1 hd
  refine ⟨m, hm, ?_⟩
  rw [← hsource]
  exact hg.built.find?_idOf (hg.ends_lt d hlive).1

theorem Built.pairwise_serial_snapshot (hg : g.Built) : g.snapshot.nodes.Pairwise fun a b => a.serial < b.serial := by
  rw [hg.nodes_snapshot, List.pairwise_map, List.pairwise_iff_getElem]
  intro m n hm hn hmn
  refine hg.serial_lt m n _ _ ?_ ?_ hmn
  · rw [node?, ← Array.getElem?_toList, List.getElem?_eq_getElem hm]
  · rw [node?, ← Array.getElem?_toList, List.getElem?_eq_getElem hn]

theorem Attained.perm_edges_snapshot (hg : g.Attained) : (g.snapshot.edges.map (EdgeRecord.readBack g)).Perm
    (g.edges.live.map fun d => (some d.source, some d.target, d.type, g.edgeLabel? d.index)) := by
  rw [hg.built.edges_snapshot, List.map_map]
  refine ((perm_flatMap_outEdges fun d hd => (hg.ends_lt d hd).1).map _).trans (.of_eq ?_)
  exact List.map_congr_left fun d hd => hg.readBack_ofEdge hd

theorem Attained.exists_block (hg : g.Attained) {n : NodeRef} (hn : n < g.nodes.size) : ∃ older newer,
    g.snapshot.edges = older ++ (g.outEdges n).map (EdgeRecord.ofEdge g) ++ newer ∧
      (∀ r ∈ older, ∃ m, m < n ∧ g.find? r.source = some m) ∧ ∀ r ∈ newer, ∃ m, n < m ∧ g.find? r.source = some m := by
  obtain ⟨older, newer, hrange, holder, hnewer⟩ := List.exists_range_eq hn
  refine ⟨(older.flatMap fun m => g.outEdges m).map (EdgeRecord.ofEdge g),
    (newer.flatMap fun m => g.outEdges m).map (EdgeRecord.ofEdge g), ?_, fun r hr => ?_, fun r hr => ?_⟩
  · rw [hg.built.edges_snapshot, hrange]
    simp [List.append_assoc]
  · obtain ⟨m, hm, hfind⟩ := hg.exists_source hr
    exact ⟨m, holder m hm, hfind⟩
  · obtain ⟨m, hm, hfind⟩ := hg.exists_source hr
    exact ⟨m, hnewer m hm, hfind⟩

/-! ### The counts -/

theorem Attained.countP_snapshot (hg : g.Attained) (p : EdgeType → Bool) :
    (g.snapshot.edges.countP fun r => p r.type) = g.edges.live.countP fun d => p d.type := by
  rw [hg.built.edges_snapshot, List.countP_map]
  exact (perm_flatMap_outEdges fun d hd => (hg.ends_lt d hd).1).countP_eq _

theorem Attained.countType_eq (hg : g.Attained) {types : List EdgeType} (p : EdgeType → Bool)
    (hp : ∀ t, types.contains t = p t) : g.countType types = g.snapshot.edges.countP fun r => p r.type := by
  rw [hg.countP_snapshot, countType]
  simp only [hp]

theorem Attained.length_edges_snapshot (hg : g.Attained) : g.snapshot.edges.length = g.edgeCount := by
  rw [← List.countP_true, hg.countP_snapshot fun _ => true, List.countP_true]
  exact g.edges.length_entries.symm

/-- Every edge is counted under one type. -/
theorem sum_countType (g : Graph) : g.countType [.control] + g.countType [.data] + g.countType [.call] +
    g.countType [.remoteCall, .remoteData] + g.countType [.member, .prototype] = g.edgeCount := by
  rw [edgeCount, EdgeStore.length_entries]
  unfold countType
  induction g.edges.live with
  | nil => rfl
  | cons d rest ih =>
    -- one of the five counts goes up, whatever the type
    simp only [List.countP_cons, List.length_cons, ← ih]
    cases d.type <;> simp <;> omega

theorem Attained.counts (hg : g.Attained) : g.stats.Counts g.snapshot where
  nodes := by
    rw [hg.built.nodes_snapshot, List.length_map, Array.length_toList]
    rfl
  edges := hg.length_edges_snapshot.symm
  control := hg.countType_eq (· = .control) (by simp)
  data := hg.countType_eq (· = .data) (by simp)
  call := hg.countType_eq (· = .call) (by simp)
  remote := hg.countType_eq (fun t => t = .remoteCall ∨ t = .remoteData) (by simp)
  object := hg.countType_eq (fun t => t = .member ∨ t = .prototype) (by simp)
  total := g.sum_countType

/-- What is exported of a graph that can be reached has every node once, in order of creation, and every live edge once,
by source. The counts by type are those of the exported edges and make up all of them. -/
theorem export_of_attained (hg : g.Attained) :
    g.snapshot.Renders g ∧ g.stats.Counts g.snapshot ∧ g.snapshot.nodes.length = g.nodeCount ∧
      g.snapshot.edges.length = g.edgeCount := by
  refine ⟨?_, hg.counts, hg.counts.nodes.symm, hg.length_edges_snapshot⟩
  constructor
  · intro n
    rw [hg.built.nodes_snapshot, List.getElem?_map, Array.getElem?_toList]
    rfl
  · exact hg.built.pairwise_serial_snapshot
  · rw [hg.built.nodes_snapshot, List.map_map]
    exact hg.built.nodup_ids
  · exact hg.perm_edges_snapshot
  · intro n hn
    exact hg.exists_block hn

/-- Two edges leave node 0, with an edge of node 2 drawn between them, and the first edge of all was removed. Its index
is handed out again. -/
def reusedIndex : Graph :=
  Edit.applyAll empty [.addStatement none, .addTierRoot .client, .addObjectEntry none, .addEdge 1 0 .control none,
    .addEdge 0 2 .data (some "x"), .addEdge 2 0 .member none, .removeOut 1 0 none, .addEdge 0 1 .remoteData (some "y")]

theorem export_of_attained_reusedIndex :
    reusedIndex.Attained ∧ reusedIndex.edges.live.map Edge.index = [1, 2, 0] ∧
      reusedIndex.snapshot.edges = [⟨"s1", "o3", .data, some "x"⟩, ⟨"s1", "Cclient", .remoteData, some "y"⟩,
        ⟨"o3", "s1", .member, none⟩] ∧ reusedIndex.snapshot.Renders reusedIndex ∧
      reusedIndex.stats.Counts reusedIndex.snapshot := by
  have hattained : reusedIndex.Attained := Attained.empty.applyAll (by decide)
  obtain ⟨hrenders, hcounts, -, -⟩ := export_of_attained hattained
  refine ⟨hattained, by decide, ?_, hrenders, hcounts⟩
  rw [hattained.built.edges_snapshot]
  decide

end Graph

end Tierwise
