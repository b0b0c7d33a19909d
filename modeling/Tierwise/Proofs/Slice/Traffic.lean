import Tierwise.Proofs.Reading
import Tierwise.Proofs.Slice.Walk

/-! # The edges of a slice, counted by the tags at their other ends

Every count goes over the same list of neighbours, one for each edge, and takes the tags as they read. Since counting is
reading, no count changes another, so the counts by tag add up to the number of edges, apart from the edges whose other
end has no tag.
-/

namespace Tierwise

namespace Graph

variable {g h : Graph} {root : NodeRef} {type : EdgeType} {side : Side}

/-- The other ends of the edges of one type that the nodes of a slice see on one side, one for each edge. -/
def sliceNeighbours (g : Graph) (root : NodeRef) (type : EdgeType) (side : Side) : List NodeRef :=
  (g.sliceNodes root).flatMap fun n => g.neighbours side n (some type)

theorem length_sliceNeighbours (g : Graph) (root : NodeRef) (type : EdgeType) (side : Side) :
    (g.sliceNeighbours root type side).length = g.countEdges root type side := by
  simp [sliceNeighbours, countEdges, neighbours, List.length_flatMap]

theorem sliceNeighbours_congr (he : h.forgetAll = g.forgetAll) :
    h.sliceNeighbours root type side = g.sliceNeighbours root type side := by
  have hsame := sameAnswers_of_forgetAll_eq he
  simp only [sliceNeighbours, hsame.sliceNodes, hsame.neighbours]

/-- The tags of the neighbours as they read, one for each edge. -/
def tagsRead (g : Graph) (root : NodeRef) (type : EdgeType) (side : Side) : List (Option Tag) :=
  (g.sliceNeighbours root type side).map fun m => (Query.tag m false g).value

theorem ReadsAlike.tagsRead_eq (hgh : g.ReadsAlike h) : h.tagsRead root type side = g.tagsRead root type side := by
  simp only [tagsRead, sliceNeighbours_congr hgh.1, hgh.tag]

end Graph

namespace Query

variable {g : Graph} {root : NodeRef} {type : EdgeType} {side : Side}

@[simp] theorem value_sliceNeighbours (root : NodeRef) (type : EdgeType) (side : Side) (g : Graph) :
    (sliceNeighbours root type side g).value = g.sliceNeighbours root type side := rfl

@[simp] theorem graph_sliceNeighbours (root : NodeRef) (type : EdgeType) (side : Side) (g : Graph) :
    (sliceNeighbours root type side g).graph = g := by
  simp [sliceNeighbours]

/-- Tags that are asked for in turn read as they did at first. -/
theorem value_each_tag (ns : List NodeRef) (g : Graph) :
    (each (tag · false) ns g).value = ns.map fun m => (tag m false g).value :=
  value_each_of_leaves respected_readsAlike.tag (fun m _ _ hgh => hgh.tag m) ns g

theorem value_countTagged (root : NodeRef) (type : EdgeType) (t : Tag) (side : Side) (g : Graph) :
    (countTagged root type t side g).value = (g.tagsRead root type side).count (some t) := by
  simp [countTagged, value_each_tag, Graph.tagsRead]

theorem value_neighbourTags (root : NodeRef) (type : EdgeType) (side : Side) (g : Graph) :
    (neighbourTags root type side g).value = ((g.tagsRead root type side).filterMap fun t => t).eraseDups := by
  simp [neighbourTags, value_each_tag, Graph.tagsRead]

end Query

namespace Graph

variable {g : Graph}

/-- The counts by tag divide the edges of a slice, whether the memos are right or not and in whatever order the tags are
listed, counted and read: a tag is listed once, and exactly if it counts for something, and the edges that are not
counted for any tag are those whose other end reads as untagged. -/
theorem countEdges_eq_sum_countTagged (root : NodeRef) (type : EdgeType) (side : Side) {total listing : Graph}
    {counting : Tag → Graph} {answers : List (Option Tag)} (htotal : g.ReadOn total) (hlisting : g.ReadOn listing)
    (hcounting : ∀ t, g.ReadOn (counting t))
    (hanswers : (g.sliceNeighbours root type side).Forall₂
      (fun m answer => ∃ h, g.ReadOn h ∧ (Query.tag m false h).value = answer) answers) :
    let tags := (Query.neighbourTags root type side listing).value
    let count := fun t => (Query.countTagged root type t side (counting t)).value
    tags.Nodup ∧ (∀ t, t ∈ tags ↔ 0 < count t) ∧
      (Query.countEdges root type side total).value = (tags.map count).sum + answers.count none := by
  intro tags count
  have htags : tags = ((g.tagsRead root type side).filterMap fun t => t).eraseDups := by
    rw [← hlisting.readsAlike.tagsRead_eq]
    exact Query.value_neighbourTags root type side listing
  have hcount : count = fun t => (g.tagsRead root type side).count (some t) := by
    funext t
    rw [← (hcounting t).readsAlike.tagsRead_eq]
    exact Query.value_countTagged root type t side (counting t)
  have hread : g.tagsRead root type side = answers := by
    rw [tagsRead, ← List.forall₂_eq_eq_eq, List.forall₂_map_left_iff]
    apply hanswers.imp
    rintro m answer ⟨h, hgh, rfl⟩
    exact (hgh.readsAlike.tag m).symm
  have hlength : (Query.countEdges root type side total).value = (g.tagsRead root type side).length := by
    rw [Query.value_countEdges, ← length_sliceNeighbours, sliceNeighbours_congr htotal.readsAlike.1, tagsRead,
      List.length_map]
  refine ⟨?_, fun t => ?_, ?_⟩
  · rw [htags]
    exact List.nodup_eraseDups _
  · rw [htags, hcount, List.mem_eraseDups, List.count_pos_iff, List.mem_filterMap]
    simp
  · rw [hlength, htags, hcount, ← hread]
    exact List.length_eq_sum_count_add_count_none _

/-- Node 3 remembers the server although it hangs under the client root now. Node 2 feeds it twice, and feeds itself and
a node that is under no root. -/
def relocated : Graph :=
  Edit.applyAll empty [.addTierRoot .client, .addTierRoot .server, .addStatement none, .addStatement none,
    .addStatement none, .addEdge 0 2 .control none, .addEdge 1 3 .control none, .ask (.tag 3 false),
    .removeOut 1 3 none, .addEdge 0 3 .control none, .addEdge 2 3 .data none, .addEdge 2 3 .data (some "again"),
    .addEdge 2 2 .data none, .addEdge 2 4 .data none]

/-- The tags are listed first and counted afterwards, and the neighbours are asked for theirs before, between and later. -/
theorem countEdges_eq_sum_countTagged_relocated :
    relocated.classify 3 = .declared (.tier .client) ∧ (relocated.memo 3).tag = some (.tier .server) ∧
      let listed := MemoQuery.afterAll relocated [.neighbourTags 0 .data .outgoing]
      let tags := (Query.neighbourTags 0 .data .outgoing relocated).value
      let count := fun t => (Query.countTagged 0 .data t .outgoing listed).value
      tags = [.tier .server, .tier .client] ∧ count (.tier .server) = 2 ∧ count (.tier .client) = 1 ∧
      (Query.countEdges 0 .data .outgoing listed).value = (tags.map count).sum + 1 := by
  have hstart : relocated.ReadOn relocated := .refl relocated
  have hlisted : relocated.ReadOn (MemoQuery.afterAll relocated [.neighbourTags 0 .data .outgoing]) :=
    ⟨_, rfl, .inl (by simp [MemoQuery.reads])⟩
  have hcompared : relocated.ReadOn (MemoQuery.afterAll relocated [.sameTag 3 4, .isShared 3]) :=
    ⟨_, rfl, .inl (by simp [MemoQuery.reads])⟩
  let answers : List (Option Tag) := [some (.tier .server), some (.tier .server), some (.tier .client), none]
  have hanswers : (relocated.sliceNeighbours 0 .data .outgoing).Forall₂
      (fun m answer => ∃ h, relocated.ReadOn h ∧ (Query.tag m false h).value = answer) answers := by
    have hneighbours : relocated.sliceNeighbours 0 .data .outgoing = [3, 3, 2, 4] := by decide +kernel
    rw [hneighbours]
    exact .cons ⟨_, hstart, by decide +kernel⟩ (.cons ⟨_, hlisted, by decide +kernel⟩
      (.cons ⟨_, hlisted, by decide +kernel⟩ (.cons ⟨_, hcompared, by decide +kernel⟩ .nil)))
  have huntagged : answers.count none = 1 := by decide
  obtain ⟨-, -, hsum⟩ := countEdges_eq_sum_countTagged 0 .data .outgoing hlisted hstart (fun _ => hlisted) hanswers
  rw [huntagged] at hsum
  exact ⟨by decide +kernel, by decide +kernel, by decide +kernel, by decide +kernel, by decide +kernel, hsum⟩

end Graph

end Tierwise
