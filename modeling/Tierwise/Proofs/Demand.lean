import Mathlib.Data.List.Permutation
import Mathlib.Data.List.Sublists
import Tierwise.Proofs.Edge.Order
import Tierwise.Proofs.NearestRoot

/-! # How many nodes a search for a slice root takes from its queue

A node waits once for every route that the search has found to it, so what counts are routes and not edges: the search
takes as many nodes as it goes along routes, each route once. It is cut off by a smaller limit and by no other, and
under every limit that does not cut it off it ends at the same node. Only where no two routes lead to the same node is
the number of edges enough.
-/

namespace Tierwise.Graph

variable {g : Graph} {n : NodeRef}

/-! ### Routes -/

/-- Where a route out of `n` leads. The last edge of a route comes first. -/
def routeEnd (n : NodeRef) : List Edge → NodeRef
  | [] => n
  | e :: _ => e.source

/-- Live edges that the search may cross, from target to source. Each one enters the node that the one before leads to,
and they come neither back to `n` nor to any node twice. -/
inductive Route (g : Graph) (n : NodeRef) : List Edge → Prop
  | nil : Route g n []
  | cons {e : Edge} {p : List Edge} : Route g n p → e ∈ g.edges.live → g.crossable e = true →
      e.target = routeEnd n p → e.source ≠ n → (∀ d ∈ p, d.source ≠ e.source) → Route g n (e :: p)

namespace Route

variable {p : List Edge}

theorem subset_live (h : g.Route n p) : p ⊆ g.edges.live := by
  induction h with
  | nil => exact List.nil_subset _
  | cons _ he _ _ _ _ ih => exact List.cons_subset.2 ⟨he, ih⟩

theorem nodup (h : g.Route n p) : p.Nodup := by
  induction h with
  | nil => exact List.nodup_nil
  | cons _ _ _ _ _ hnew ih => exact List.nodup_cons.2 ⟨fun hmem => hnew _ hmem rfl, ih⟩

end Route

/-- There are only so many routes, as none has an edge twice. -/
theorem exists_bound_routes (g : Graph) (n : NodeRef) :
    ∃ bound, ∀ ps : List (List Edge), ps.Nodup → (∀ p ∈ ps, g.Route n p) → ps.length ≤ bound := by
  let lists := g.edges.live.sublists.flatMap List.permutations
  refine ⟨lists.length, fun ps hnodup hps => hnodup.length_le_of_subset fun p hp => ?_⟩
  obtain ⟨l, hperm, hsub⟩ := List.subperm_of_subset (hps p hp).nodup (hps p hp).subset_live
  exact List.mem_flatMap.2 ⟨l, List.mem_sublists.2 hsub, List.mem_permutations.2 hperm.symm⟩

/-- Where no two routes lead to the same node, there are no more routes than edges. -/
theorem length_routes_le {ps : List (List Edge)} (hnodup : ps.Nodup) (hps : ∀ p ∈ ps, p ≠ [] ∧ g.Route n p)
    (hunique : ∀ p ∈ ps, ∀ q ∈ ps, routeEnd n p = routeEnd n q → p = q) : ps.length ≤ g.edgeCount := by
  have hheads : (ps.map List.head?).Nodup := by
    refine List.Nodup.map_on (fun p hp q hq heq => hunique p hp q hq ?_) hnodup
    cases p with
    | nil => exact absurd rfl (hps _ hp).1
    | cons e p =>
      cases q with
      | nil => exact absurd rfl (hps _ hq).1
      | cons d q =>
        rw [List.head?_cons, List.head?_cons, Option.some.injEq] at heq
        rw [routeEnd, routeEnd, heq]
  have hlive : ps.map List.head? ⊆ g.edges.live.map some := by
    intro x hx
    obtain ⟨p, hp, rfl⟩ := List.mem_map.1 hx
    cases p with
    | nil => exact absurd rfl (hps _ hp).1
    | cons e p => exact List.mem_map.2 ⟨e, (hps _ hp).2.subset_live List.mem_cons_self, rfl⟩
  have hlength := hheads.length_le_of_subset hlive
  rwa [List.length_map, List.length_map, ← EdgeStore.length_entries] at hlength

/-! ### One step -/

/-- Edges into `v` that the search may cross. -/
def crossableInto (g : Graph) (v : NodeRef) : List Edge :=
  g.edges.live.filter fun e => e.target == v && g.crossable e

theorem mem_crossableInto {v : NodeRef} {e : Edge} :
    e ∈ g.crossableInto v ↔ e ∈ g.edges.live ∧ e.target = v ∧ g.crossable e = true := by
  simp [crossableInto]

theorem next_provenanceArcs (g : Graph) (v : NodeRef) :
    g.provenanceArcs.next v = (g.crossableInto v).map Edge.source := by
  simp only [provenanceArcs, Arcs.next, crossableInto, List.filter_map, List.map_map, List.filter_filter]
  rfl

theorem nodup_crossableInto (g : Graph) (v : NodeRef) : (g.crossableInto v).Nodup := g.edges.nodup_live.filter _

/-- The routes that go on from `p` by one edge to a node that is not marked. -/
def onward (g : Graph) (n : NodeRef) (marked : List NodeRef) (p : List Edge) : List (List Edge) :=
  ((g.crossableInto (routeEnd n p)).filter fun e => !marked.contains e.source).map (· :: p)

/-- A route that goes on to a node off the route is a route. -/
theorem Route.onward {marked : List NodeRef} {p q : List Edge} (hp : g.Route n p) (hn : n ∈ marked)
    (hmarked : ∀ e ∈ p, e.source ∈ marked) (hq : q ∈ g.onward n marked p) : q.tail = p ∧ q ≠ [] ∧ g.Route n q := by
  obtain ⟨e, he, rfl⟩ := List.mem_map.1 hq
  obtain ⟨hinto, hmark⟩ := List.mem_filter.1 he
  obtain ⟨hlive, htarget, hcross⟩ := mem_crossableInto.1 hinto
  have hout : e.source ∉ marked := by simpa using hmark
  refine ⟨rfl, List.cons_ne_nil _ _, .cons hp hlive hcross htarget ?_ ?_⟩
  · rintro rfl
    exact hout hn
  · intro d hd heq
    exact hout (heq ▸ hmarked d hd)

theorem nodup_onward (g : Graph) (n : NodeRef) (marked : List NodeRef) (p : List Edge) :
    (g.onward n marked p).Nodup :=
  ((g.nodup_crossableInto _).filter _).map fun _ _ h => (List.cons.inj h).1

theorem map_routeEnd_onward (marked : List NodeRef) (p : List Edge) :
    (g.onward n marked p).map (routeEnd n) =
      (g.provenanceArcs.next (routeEnd n p)).filter fun w => !marked.contains w := by
  rw [next_provenanceArcs, onward, List.map_map, List.filter_map]
  rfl

/-- The routes that a search has taken and those that wait, with the nodes that it has marked. -/
structure Explored (g : Graph) (n : NodeRef) (taken waiting : List (List Edge)) (marked : List NodeRef) : Prop where
  route : ∀ p ∈ taken ++ waiting, p ≠ [] ∧ g.Route n p
  nodup : (taken ++ waiting).Nodup
  /-- A route waits only after the route without its last edge was taken. -/
  parent : ∀ p ∈ taken ++ waiting, p.tail = [] ∨ p.tail ∈ taken
  start : n ∈ marked
  marked : ∀ p ∈ taken, ∀ e ∈ p, e.source ∈ marked

namespace Explored

variable {taken rest : List (List Edge)} {p : List Edge} {marked : List NodeRef}

theorem init (g : Graph) (n : NodeRef) : g.Explored n [] (g.onward n [n] []) [n] where
  route := fun p hp => (Route.nil.onward (by simp) (by simp) hp).2
  nodup := g.nodup_onward n [n] []
  parent := fun p hp => .inl (Route.nil.onward (by simp) (by simp) hp).1
  start := List.mem_singleton_self n
  marked := by simp

/-- Taking the route at the front keeps what was explored. -/
theorem expand (h : g.Explored n taken (p :: rest) marked) :
    g.Explored n (taken ++ [p]) (rest ++ g.onward n (marked.insert (routeEnd n p)) p)
      (marked.insert (routeEnd n p)) := by
  have hp : p ∈ taken ++ p :: rest := by simp
  have hn : n ∈ marked.insert (routeEnd n p) := List.mem_insert_of_mem h.start
  have hsources : ∀ e ∈ p, e.source ∈ marked.insert (routeEnd n p) := by
    intro e he
    cases p with
    | nil => cases he
    | cons d q =>
      rcases List.mem_cons.1 he with rfl | he
      · exact List.mem_insert_self
      · rcases h.parent _ hp with htail | htail
        · rw [List.tail_cons] at htail
          rw [htail] at he
          cases he
        · exact List.mem_insert_of_mem (h.marked q htail e he)
  have hmoved : taken ++ [p] ++ (rest ++ g.onward n (marked.insert (routeEnd n p)) p) =
      taken ++ p :: rest ++ g.onward n (marked.insert (routeEnd n p)) p := by simp
  have honward : ∀ q ∈ g.onward n (marked.insert (routeEnd n p)) p, q.tail = p ∧ q ≠ [] ∧ g.Route n q :=
    fun q hq => (h.route p hp).2.onward hn hsources hq
  refine ⟨?_, ?_, ?_, hn, ?_⟩
  · rw [hmoved]
    intro q hq
    rcases List.mem_append.1 hq with hq | hq
    · exact h.route q hq
    · exact (honward q hq).2
  · rw [hmoved]
    refine List.nodup_append.2 ⟨h.nodup, g.nodup_onward _ _ _, ?_⟩
    -- A route that goes on from `p` was not there before: `p` would have been taken by then.
    rintro q hq q' hq' rfl
    have htail := (honward q hq').1
    rcases h.parent q hq with hnil | htaken
    · exact (h.route p hp).1 (htail.symm.trans hnil)
    · rw [htail] at htaken
      have hdisjoint := (List.nodup_append.1 h.nodup).2.2
      exact hdisjoint p htaken p (by simp) rfl
  · rw [hmoved]
    intro q hq
    rcases List.mem_append.1 hq with hq | hq
    · exact (h.parent q hq).imp_right (List.mem_append_left _)
    · exact .inr (by simp [(honward q hq).1])
  · intro q hq e he
    rcases List.mem_append.1 hq with hq | hq
    · exact List.mem_insert_of_mem (h.marked q hq e he)
    · rw [List.mem_singleton.1 hq] at he
      exact hsources e he

theorem taken_nodup (h : g.Explored n taken (p :: rest) marked) : (taken ++ [p]).Nodup := by
  have hnodup := h.nodup
  rw [List.append_cons] at hnodup
  exact (List.nodup_append.1 hnodup).1

/-- While a route waits, there are routes that were not taken. -/
theorem length_taken_lt {bound : Nat}
    (hbound : ∀ ps : List (List Edge), ps.Nodup → (∀ p ∈ ps, g.Route n p) → ps.length ≤ bound)
    (h : g.Explored n taken (p :: rest) marked) : taken.length < bound := by
  have hroutes : ∀ q ∈ taken ++ [p], g.Route n q := by
    intro q hq
    have hmem : q ∈ taken ++ p :: rest := by grind
    exact (h.route q hmem).2
  have hlength := hbound (taken ++ [p]) h.taken_nodup hroutes
  rwa [List.length_append, List.length_singleton] at hlength

end Explored

/-! ### Whole searches -/

/-- Limits below `k` cut the search off, and under every other limit it ends at `final`. -/
def Needs (search : Nat → Trail) (k : Nat) (final : Option NodeRef) : Prop :=
  ∀ limit, (limit < k → (search limit).limited = true) ∧ (k ≤ limit → search limit = ⟨final, false⟩)

theorem needs_zero {search : Nat → Trail} {final : Option NodeRef} (h : ∀ limit, search limit = ⟨final, false⟩) :
    Needs search 0 final :=
  fun limit => ⟨nofun, fun _ => h limit⟩

theorem needs_succ {search : Nat → Trail} {k : Nat} {final : Option NodeRef} (h : (search 0).limited = true)
    (hk : Needs (fun limit => search (limit + 1)) k final) : Needs search (k + 1) final := by
  intro limit
  cases limit with
  | zero => exact ⟨fun _ => h, nofun⟩
  | succ limit =>
    refine ⟨fun hlt => (hk limit).1 ?_, fun hle => (hk limit).2 ?_⟩
    · omega
    · omega

/-- A search takes some routes more, each once, and needs a limit of that many. -/
theorem exists_taken (stop : NodeRef → Bool) (last : Option NodeRef) {taken waiting : List (List Edge)}
    {marked : List NodeRef} {queue : Queue NodeRef} {bound : Nat}
    (hbound : ∀ ps : List (List Edge), ps.Nodup → (∀ p ∈ ps, g.Route n p) → ps.length ≤ bound)
    (h : g.Explored n taken waiting marked) (hqueue : queue.toList = waiting.map (routeEnd n)) :
    ∃ ps final, (taken ++ ps).Nodup ∧ (∀ p ∈ ps, p ≠ [] ∧ g.Route n p) ∧
      Needs (fun limit => Trail.search g.provenanceArcs stop limit queue marked last) ps.length final := by
  -- The number of routes not yet taken falls with every step.
  induction hmore : bound - taken.length using Nat.strong_induction_on
    generalizing taken waiting marked queue last with
  | _ more ih =>
    cases waiting with
    | nil =>
      have hpop : queue.pop? = none := (Queue.pop?_eq_none_iff queue).2 hqueue
      exact ⟨[], last, h.nodup, by simp, needs_zero (Trail.search_of_pop?_eq_none hpop)⟩
    | cons p rest =>
      obtain ⟨tail, hpop, htail⟩ := Queue.exists_pop?_of_toList hqueue
      have hroute := h.route p (by simp)
      have hzero : (Trail.search g.provenanceArcs stop 0 queue marked last).limited = true := by
        simp [Trail.search_zero, hpop]
      cases hstop : stop (routeEnd n p) with
      | true =>
        refine ⟨[p], some (routeEnd n p), h.taken_nodup, by simpa using hroute, needs_succ hzero (needs_zero ?_)⟩
        intro limit
        simp [Trail.search_of_pop?_eq_some hpop, hstop]
      | false =>
        have hless : bound - (taken ++ [p]).length < more := by
          have hlength := h.length_taken_lt hbound
          rw [List.length_append, List.length_singleton]
          omega
        have hqueue' : (tail.append ((g.provenanceArcs.next (routeEnd n p)).filter fun w =>
            !(marked.insert (routeEnd n p)).contains w)).toList =
              (rest ++ g.onward n (marked.insert (routeEnd n p)) p).map (routeEnd n) := by
          rw [Queue.toList_append, htail, List.map_append, map_routeEnd_onward]
        obtain ⟨ps, final, hnodup, hps, hneeds⟩ := ih _ hless (some (routeEnd n p)) h.expand hqueue' rfl
        refine ⟨p :: ps, final, by simpa using hnodup, List.forall_mem_cons.2 ⟨hroute, hps⟩, needs_succ hzero ?_⟩
        simpa [Trail.search_of_pop?_eq_some hpop, hstop] using hneeds

/-- The same graph with other settings. -/
def under (g : Graph) (s : Settings) : Graph := { g with settings := s }

/-- The routes `ps` are what a search from `n` takes: a limit cuts it off when it is below their number, and the answers
under all other limits are the same. -/
structure Demand (g : Graph) (n : NodeRef) (ps : List (List Edge)) : Prop where
  nodup : ps.Nodup
  route : ∀ p ∈ ps, p ≠ [] ∧ g.Route n p
  limited (s : Settings) : ((g.under s).provenance n).limited = true ↔ s.worklistLimit.toNat < ps.length
  agree (s t : Settings) : ps.length ≤ s.worklistLimit.toNat → ps.length ≤ t.worklistLimit.toNat →
    (g.under s).sliceRootOf n = (g.under t).sliceRootOf n ∧ (g.under s).classify n = (g.under t).classify n ∧
      (g.under s).tierOf n = (g.under t).tierOf n

/-- No edge that may be crossed is a loop. -/
theorem filter_next_provenanceArcs (g : Graph) (n : NodeRef) :
    ((g.provenanceArcs.next n).filter fun w => !List.contains [n] w) = g.provenanceArcs.next n := by
  rw [List.filter_eq_self]
  intro w hw
  have hne : w ≠ n := by
    rintro rfl
    exact loop_notMem_provenanceArcs w (Arcs.mem_next.1 hw)
  simpa using hne

/-- The first nodes that wait are where the routes of one edge lead. -/
theorem next_eq_map_onward (g : Graph) (n : NodeRef) :
    g.provenanceArcs.next n = (g.onward n [n] []).map (routeEnd n) := by
  rw [map_routeEnd_onward, routeEnd, filter_next_provenanceArcs]

theorem exists_demand (g : Graph) (n : NodeRef) : ∃ ps, g.Demand n ps := by
  obtain ⟨bound, hbound⟩ := exists_bound_routes g n
  have hqueue : (Queue.ofList (g.provenanceArcs.next n)).toList = (g.onward n [n] []).map (routeEnd n) := by
    rw [Queue.toList_ofList, next_eq_map_onward]
  obtain ⟨ps, final, hnodup, hroute, hneeds⟩ :=
    exists_taken (g.holds Node.isStop) none hbound (Explored.init g n) hqueue
  have hprovenance (s : Settings) (h : ps.length ≤ s.worklistLimit.toNat) : (g.under s).provenance n = ⟨final, false⟩ :=
    (hneeds _).2 h
  refine ⟨ps, hnodup, hroute, fun s => ⟨fun hlimited => ?_, (hneeds _).1⟩, fun s t hs ht => ?_⟩
  · by_contra hle
    rw [hprovenance s (Nat.le_of_not_lt hle)] at hlimited
    cases hlimited
  · unfold sliceRootOf classify tierOf
    rw [hprovenance s hs, hprovenance t ht]
    exact ⟨rfl, rfl, rfl⟩

/-- A search for a slice root takes routes, each once, and is cut off exactly by a limit below their number. Where no two
routes lead to the same node, the number of edges is a limit that does not cut it off. -/
theorem provenance_demand (g : Graph) (n : NodeRef) :
    ∃ ps, g.Demand n ps ∧ ((∀ p q, g.Route n p → g.Route n q → routeEnd n p = routeEnd n q → p = q) →
      ps.length ≤ g.edgeCount) := by
  obtain ⟨ps, hps⟩ := exists_demand g n
  refine ⟨ps, hps, fun hunique => length_routes_le hps.nodup hps.route fun p hp q hq => ?_⟩
  exact hunique p q (hps.route p hp).2 (hps.route q hq).2

/-- Two diamonds, one above the other, between node 1 and the slice root. -/
def doubleDiamond : Graph :=
  let statement : Node := { serial := 0, kind := .statement }
  let arcs := [(2, 1), (3, 1), (4, 2), (4, 3), (5, 4), (6, 4), (7, 5), (7, 6), (0, 7)]
  { nodes := #[{ serial := 0, kind := .slice ⟨.tier .client, some .client, true⟩ }, statement, statement, statement,
      statement, statement, statement, statement]
    edges := arcs.foldl (fun s a => s.add a.1 a.2 .control none) {}
    settings := { Settings.standard with worklistLimit := 9 } }

/-- The tier of node 1 is lost with a limit of as many nodes as there are edges: four routes lead to node 7. -/
theorem tier_lost_by_doubleDiamond :
    doubleDiamond.edgeCount ≤ doubleDiamond.worklistLimit ∧ (doubleDiamond.provenance 1).limited = true ∧
      doubleDiamond.sliceRootOf 1 = none ∧ doubleDiamond.classify 1 = .undetermined ∧ doubleDiamond.tierOf 1 = none ∧
      (doubleDiamond.under Settings.standard).sliceRootOf 1 = some 0 ∧
      (doubleDiamond.under Settings.standard).classify 1 = .declared (.tier .client) ∧
      (doubleDiamond.under Settings.standard).tierOf 1 = some .client := by
  decide

end Tierwise.Graph
