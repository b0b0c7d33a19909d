import Mathlib.Logic.Relation
import Tierwise.Proofs.Edge.Order
import Tierwise.Reach

/-! # What a search for a path finds

The search marks edges and asks about nodes: an edge counts as seen once it is queued, and a node once an edge into it
was followed. The source itself is not seen at the start, so a path back to it needs an edge that enters it.
-/

namespace Tierwise

/-- One or more live edges, of any types, lead from `u` to `v`. -/
def Graph.Leads (g : Graph) : NodeRef → NodeRef → Prop :=
  Relation.TransGen fun u v => ∃ e ∈ g.edges.live, e.source = u ∧ e.target = v

theorem Graph.mem_outEdges {g : Graph} {n : NodeRef} {e : Edge} :
    e ∈ g.outEdges n ↔ e ∈ g.edges.live ∧ e.source = n := by
  simp [outEdges, mem_edgesAt, Edge.near]

namespace Reach

variable {g : Graph} {source target : NodeRef} {followed queue rest : List Edge} {e : Edge}

/-- The state of a search: the edges followed so far, none of which enters the target, and those that wait. -/
structure Sweep (g : Graph) (source target : NodeRef) (followed queue : List Edge) : Prop where
  live : followed ++ queue ⊆ g.edges.live
  nodup : (followed ++ queue).Nodup
  leads : ∀ e ∈ followed ++ queue, g.Leads source e.target
  /-- Edges out of the source and out of nodes that were entered are queued. -/
  closed : ∀ e ∈ g.edges.live, e.source = source ∨ e.source ∈ followed.map Edge.target → e ∈ followed ++ queue
  missed : target ∉ followed.map Edge.target

/-- The edges out of a node that are not in a list, as the search picks them out by index. -/
def fresh (g : Graph) (seen : List Edge) (n : NodeRef) : List Edge :=
  (g.outEdges n).filter fun f => !(seen.map Edge.index).contains f.index

theorem mem_fresh {seen : List Edge} {n : NodeRef} (hseen : seen ⊆ g.edges.live) :
    e ∈ fresh g seen n ↔ e ∈ g.edges.live ∧ e.source = n ∧ e ∉ seen := by
  have hindex : e ∈ g.edges.live → (e.index ∈ seen.map Edge.index ↔ e ∈ seen) := by
    intro he
    constructor
    · intro hi
      obtain ⟨d, hd, heq⟩ := List.mem_map.1 hi
      rwa [← EdgeStore.eq_of_index_eq (hseen hd) he heq]
    · exact List.mem_map_of_mem
  rw [fresh, List.mem_filter, Graph.mem_outEdges, Bool.not_eq_true', List.contains_eq_mem, decide_eq_false_iff_not,
    and_assoc]
  constructor
  · rintro ⟨he, hn, hnew⟩
    exact ⟨he, hn, fun h => hnew ((hindex he).2 h)⟩
  · rintro ⟨he, hn, hnew⟩
    exact ⟨he, hn, fun h => hnew ((hindex he).1 h)⟩

namespace Sweep

theorem init (g : Graph) (source target : NodeRef) : Sweep g source target [] (g.outEdges source) where
  live := fun e he => (Graph.mem_outEdges.1 he).1
  nodup := g.nodup_edgesAt .outgoing source none
  leads := by
    intro e he
    obtain ⟨hlive, hsource⟩ := Graph.mem_outEdges.1 he
    exact .single ⟨e, hlive, hsource, rfl⟩
  closed := by
    rintro e he (hsource | hentered)
    · exact Graph.mem_outEdges.2 ⟨he, hsource⟩
    · cases hentered
  missed := List.not_mem_nil

/-- Following the edge at the front keeps the state. -/
theorem follow (h : Sweep g source target followed (e :: rest)) (hmiss : e.target ≠ target) :
    Sweep g source target (followed ++ [e]) (rest ++ fresh g (followed ++ e :: rest) e.target) := by
  have hnew := fun d => mem_fresh (e := d) (n := e.target) h.live
  have hfresh : (fresh g (followed ++ e :: rest) e.target).Nodup := (g.nodup_edgesAt .outgoing e.target none).filter _
  generalize fresh g (followed ++ e :: rest) e.target = more at hnew hfresh ⊢
  have hseen : followed ++ [e] ++ (rest ++ more) = followed ++ e :: rest ++ more := by simp
  constructor
  · rw [hseen]
    intro d hd
    rcases List.mem_append.1 hd with hd | hd
    · exact h.live hd
    · exact ((hnew d).1 hd).1
  · rw [hseen, List.nodup_append]
    refine ⟨h.nodup, hfresh, ?_⟩
    rintro d hd d' hd' rfl
    exact ((hnew d).1 hd').2.2 hd
  · rw [hseen]
    intro d hd
    rcases List.mem_append.1 hd with hd | hd
    · exact h.leads d hd
    · obtain ⟨hlive, hsource, -⟩ := (hnew d).1 hd
      exact (h.leads e (by simp)).tail ⟨d, hlive, hsource, rfl⟩
  · rw [hseen]
    intro d hd hentered
    by_cases hsource : d.source = e.target
    · by_cases hold : d ∈ followed ++ e :: rest
      · exact List.mem_append_left _ hold
      · exact List.mem_append_right _ ((hnew d).2 ⟨hd, hsource, hold⟩)
    · have hbefore : d.source = source ∨ d.source ∈ followed.map Edge.target := by simpa [hsource] using hentered
      exact List.mem_append_left _ (h.closed d hd hbefore)
  · simpa [hmiss.symm] using h.missed

theorem length_le (h : Sweep g source target followed queue) : followed.length + queue.length ≤ g.edgeCount := by
  rw [← List.length_append]
  exact Graph.length_le_edgeCount h.nodup h.live

/-- Where nothing waits, every node that a path leads to was entered, and the target is not among them. -/
theorem not_leads (h : Sweep g source target followed []) : ¬g.Leads source target := by
  have hseen : followed ++ [] = followed := List.append_nil followed
  have hentered : ∀ v, g.Leads source v → v ∈ followed.map Edge.target := by
    intro v hv
    induction hv with
    | single ha =>
      obtain ⟨d, hd, hsource, rfl⟩ := ha
      exact List.mem_map_of_mem (hseen ▸ h.closed d hd (.inl hsource))
    | tail _ ha ih =>
      obtain ⟨d, hd, rfl, rfl⟩ := ha
      exact List.mem_map_of_mem (hseen ▸ h.closed d hd (.inr ih))
  intro htarget
  exact h.missed (hentered target htarget)

end Sweep

/-- What the answer of a search that may follow `limit` edges stands for. -/
def Justified (g : Graph) (source target : NodeRef) (limit : Nat) : Reach → Prop
  | found => g.Leads source target
  | exhausted => ¬g.Leads source target
  | limited => limit < g.edgeCount

theorem Sweep.justified_run (h : Sweep g source target followed queue) (limit : Nat) :
    Justified g source target (followed.length + limit)
      (run g target limit queue ((followed ++ queue).map Edge.index)) := by
  induction limit generalizing followed queue with
  | zero =>
    cases queue with
    | nil => exact h.not_leads
    | cons e rest =>
      have hlength := h.length_le
      rw [List.length_cons] at hlength
      change followed.length + 0 < g.edgeCount
      omega
  | succ limit ih =>
    cases queue with
    | nil => exact h.not_leads
    | cons e rest =>
      by_cases htarget : e.target = target
      · have hleads := h.leads e (by simp)
        simpa [run, htarget, Justified] using htarget ▸ hleads
      · have hrest := ih (h.follow htarget)
        simpa [run, htarget, fresh, Nat.add_assoc, Nat.add_comm 1] using hrest

end Reach

namespace Graph

variable {g : Graph} {a b : NodeRef}

theorem justified_reach (g : Graph) (a b : NodeRef) : Reach.Justified g a b g.worklistLimit (g.reach a b) := by
  have hjustified := (Reach.Sweep.init g a b).justified_run g.worklistLimit
  rwa [List.length_nil, Nat.zero_add] at hjustified

theorem pathExists_iff : g.pathExists a b = true ↔ g.reach a b = .found := beq_iff_eq

theorem warnings_pathExists (h : g.reach a b ≠ .limited) : (Query.pathExists a b g).warnings = [] := by
  simp [Query.pathExists, h]

/-- A path that is found is there, under every limit. A limit of as many edges as there are lets the search find every
path, and does not cut it off. -/
theorem pathExists_exact (g : Graph) (a b : NodeRef) :
    ((Query.pathExists a b g).value = true → g.Leads a b) ∧
      (g.edgeCount ≤ g.worklistLimit →
        ((Query.pathExists a b g).value = true ↔ g.Leads a b) ∧ (Query.pathExists a b g).warnings = []) := by
  have hjustified := g.justified_reach a b
  rw [Query.value_pathExists, pathExists_iff]
  cases hreach : g.reach a b with
  | found =>
    rw [hreach] at hjustified
    have hleads : g.Leads a b := hjustified
    refine ⟨fun _ => hleads, fun _ => ⟨iff_of_true rfl hleads, ?_⟩⟩
    apply warnings_pathExists
    simp [hreach]
  | exhausted =>
    rw [hreach] at hjustified
    have hnone : ¬g.Leads a b := hjustified
    refine ⟨nofun, fun _ => ⟨iff_of_false nofun hnone, ?_⟩⟩
    apply warnings_pathExists
    simp [hreach]
  | limited =>
    rw [hreach] at hjustified
    exact ⟨nofun, fun hlimit => absurd hjustified (Nat.not_lt.2 hlimit)⟩

/-- Edges of three types lead around nodes 1, 2 and 3. One more leads in from node 0, and one leads out to node 4. The limit
is the number of edges. -/
def ringRoad : Graph :=
  let arcs := [(0, 1, EdgeType.data), (1, 2, .control), (2, 3, .call), (3, 1, .data), (2, 4, .remoteData)]
  { nodes := Array.replicate 5 { serial := 0, kind := .statement }
    edges := arcs.foldl (fun s a => s.add a.1 a.2.1 a.2.2 none) {}
    settings := { Settings.standard with worklistLimit := 5 } }

theorem pathExists_exact_ringRoad :
    ringRoad.edgeCount ≤ ringRoad.worklistLimit ∧ ringRoad.Leads 0 4 ∧ ringRoad.Leads 2 2 ∧ ¬ringRoad.Leads 0 0 ∧
      ¬ringRoad.Leads 4 2 ∧ (Query.pathExists 0 4 ringRoad).warnings = [] := by
  have hlimit : ringRoad.edgeCount ≤ ringRoad.worklistLimit := by decide
  have hexact := fun a b => (pathExists_exact ringRoad a b).2 hlimit
  refine ⟨hlimit, (hexact 0 4).1.1 (by decide), (pathExists_exact ringRoad 2 2).1 (by decide), fun hself => ?_,
    fun hback => ?_, (hexact 0 4).2⟩
  · have hfound := (hexact 0 0).1.2 hself
    revert hfound
    decide
  · have hfound := (hexact 4 2).1.2 hback
    revert hfound
    decide

end Graph

end Tierwise
