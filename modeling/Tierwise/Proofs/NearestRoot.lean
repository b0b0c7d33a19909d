import Tierwise.Provenance
import Tierwise.Proofs.Path

/-! # The search for a slice root ends at a nearest stop

A node waits in the queue once for every arc that leads to it and may be expanded more than once, so distances cannot be
kept with the nodes. They are kept with the places in the queue: the lengths of the paths that led there never fall from
front to back and differ by one at most.
-/

namespace Tierwise

namespace Trail

variable {arcs : Arcs} {stop : NodeRef → Bool} {n v : NodeRef} {k : Nat}

/-- A stop other than `n`, at the end of a path of `k` steps from `n`. -/
def StopAt (arcs : Arcs) (stop : NodeRef → Bool) (n : NodeRef) (k : Nat) (s : NodeRef) : Prop :=
  s ≠ n ∧ stop s = true ∧ arcs.Path [] k n s

/-- The queue of a search from `n`, each item with the length of a path that leads to it. -/
structure Frontier (arcs : Arcs) (stop : NodeRef → Bool) (n : NodeRef) (items : List (NodeRef × Nat))
    (marked : List NodeRef) : Prop where
  level : Arcs.Levelled items
  path : ∀ p ∈ items, p.1 ≠ n ∧ arcs.Path [] p.2 n p.1
  start : n ∈ marked
  passed : ∀ m ∈ marked, m = n ∨ stop m = false
  /-- A path to an unmarked node can be replaced by one that goes through the queue and is not longer. -/
  cover : ∀ s j, s ∉ marked → arcs.Path [] j n s → ∃ p ∈ items, ∃ i, arcs.Path marked i p.1 s ∧ p.2 + i ≤ j

namespace Frontier

variable {items rest : List (NodeRef × Nat)} {marked : List NodeRef}

theorem init (hloop : (n, n) ∉ arcs) :
    Frontier arcs stop n ((arcs.next n).map fun w => (w, 1)) [n] where
  level := .of_same 1 (arcs.next n)
  path := by
    intro p hp
    obtain ⟨w, hw, rfl⟩ := List.mem_map.1 hp
    have ha := Arcs.mem_next.1 hw
    refine ⟨?_, .step (by simp) ha (.stay (by simp))⟩
    rintro rfl
    exact hloop ha
  start := by simp
  passed := by simp
  cover := by
    intro s j hs hp
    have hsn : s ≠ n := by simpa using hs
    have hoff : ∀ x, x ∈ [n] ↔ x = n ∨ x ∈ ([] : List NodeRef) := by simp
    rcases hp.avoid hoff hsn with h | ⟨w, i, ha, hw, hi⟩
    · exact absurd (by simp) h.start_notMem
    · exact ⟨(w, 1), List.mem_map.2 ⟨w, Arcs.mem_next.2 ha, rfl⟩, i, hw, by omega⟩

theorem head_le (h : Frontier arcs stop n ((v, k) :: rest) marked) {p : NodeRef × Nat} (hp : p ∈ (v, k) :: rest) :
    k ≤ p.2 := by
  rcases List.mem_cons.1 hp with rfl | hp
  · exact Nat.le_refl _
  · exact h.level.le_of_mem hp

/-- Expanding the node at the front keeps the frontier. -/
theorem expand (h : Frontier arcs stop n ((v, k) :: rest) marked) (hv : stop v = false) :
    Frontier arcs stop n
      (rest ++ ((arcs.next v).filter fun w => !(marked.insert v).contains w).map fun w => (w, k + 1))
      (marked.insert v) where
  level := h.level.append _
  path := by
    intro p hp
    rcases List.mem_append.1 hp with hp | hp
    · exact h.path p (List.mem_cons_of_mem _ hp)
    · obtain ⟨w, hw, rfl⟩ := List.mem_map.1 hp
      obtain ⟨hnext, hmark⟩ := List.mem_filter.1 hw
      have hout : w ∉ marked.insert v := by simpa using hmark
      refine ⟨?_, (h.path (v, k) (by simp)).2.snoc (Arcs.mem_next.1 hnext)⟩
      rintro rfl
      exact hout (List.mem_insert_of_mem h.start)
  start := List.mem_insert_of_mem h.start
  passed := by
    intro m hm
    rcases List.mem_insert_iff.1 hm with rfl | hm
    · exact .inr hv
    · exact h.passed m hm
  cover := by
    intro s j hs hp
    have hsv : s ≠ v := by
      rintro rfl
      exact hs List.mem_insert_self
    have hold : s ∉ marked := fun hm => hs (List.mem_insert_of_mem hm)
    obtain ⟨p, hpi, i, hpath, hlen⟩ := h.cover s j hold hp
    have hk := h.head_le hpi
    -- A path through `v` goes on from a successor of `v`, which is in the queue now.
    rcases hpath.avoid (fun x => List.mem_insert_iff) hsv with hoff | ⟨w, l, ha, hoff, hl⟩
    · have hne : p ≠ (v, k) := by
        rintro rfl
        exact hoff.start_notMem List.mem_insert_self
      have hrest : p ∈ rest := (List.mem_cons.1 hpi).resolve_left hne
      exact ⟨p, List.mem_append_left _ hrest, i, hoff, hlen⟩
    · refine ⟨(w, k + 1), List.mem_append_right _ (List.mem_map.2 ⟨w, ?_, rfl⟩), l, hoff, ?_⟩
      · exact List.mem_filter.2 ⟨Arcs.mem_next.2 ha, by simpa using hoff.start_notMem⟩
      · simp only
        omega

/-- The search has passed no stop. -/
theorem notMem_of_stopAt (h : Frontier arcs stop n items marked) {s : NodeRef} {j : Nat}
    (hs : StopAt arcs stop n j s) : s ∉ marked := by
  intro hm
  rcases h.passed s hm with rfl | hf
  · exact hs.1 rfl
  · exact Bool.false_ne_true (hf.symm.trans hs.2.1)

theorem le_of_stopAt (h : Frontier arcs stop n ((v, k) :: rest) marked) {s : NodeRef} {j : Nat}
    (hs : StopAt arcs stop n j s) : k ≤ j := by
  obtain ⟨p, hp, i, -, hlen⟩ := h.cover s j (h.notMem_of_stopAt hs) hs.2.2
  have := h.head_le hp
  omega

theorem not_stopAt_of_nil (h : Frontier arcs stop n [] marked) (s : NodeRef) (j : Nat) :
    ¬StopAt arcs stop n j s := by
  intro hs
  obtain ⟨p, hp, -⟩ := h.cover s j (h.notMem_of_stopAt hs) hs.2.2
  simp at hp

end Frontier

section Search

variable {queue rest : Queue NodeRef} {marked : List NodeRef} {last : Option NodeRef}

theorem search_zero : search arcs stop 0 queue marked last = ⟨last, queue.pop?.isSome⟩ := rfl

theorem search_of_pop?_eq_none (h : queue.pop? = none) (limit : Nat) :
    search arcs stop limit queue marked last = ⟨last, false⟩ := by
  cases limit <;> simp [search, h]

theorem search_of_pop?_eq_some (h : queue.pop? = some (v, rest)) (limit : Nat) :
    search arcs stop (limit + 1) queue marked last =
      if stop v then ⟨some v, false⟩
      else search arcs stop limit
        (rest.append ((arcs.next v).filter fun w => !(marked.insert v).contains w)) (marked.insert v) (some v) := by
  simp [search, h]

/-- How a search that was not cut off ends: at a stop such that none is nearer, or, where there is no stop at all, at
whatever it saw last. -/
def Settled (arcs : Arcs) (stop : NodeRef → Bool) (n : NodeRef) (last : Option NodeRef) : Prop :=
  (∃ v k, last = some v ∧ StopAt arcs stop n k v ∧ ∀ s j, StopAt arcs stop n j s → k ≤ j) ∨
    (∀ s j, ¬StopAt arcs stop n j s) ∧ ∀ v, last = some v → stop v = false

theorem settled_search (limit : Nat) {items : List (NodeRef × Nat)} (hq : queue.toList = items.map Prod.fst)
    (hf : Frontier arcs stop n items marked) (hlast : ∀ v, last = some v → stop v = false)
    (hl : (search arcs stop limit queue marked last).limited = false) :
    Settled arcs stop n (search arcs stop limit queue marked last).last := by
  induction limit generalizing queue items marked last with
  | zero =>
    have hnone : queue.pop? = none := by simpa [search_zero] using hl
    rw [Queue.pop?_eq_none_iff, hq, List.map_eq_nil_iff] at hnone
    subst hnone
    exact .inr ⟨hf.not_stopAt_of_nil, hlast⟩
  | succ limit ih =>
    cases hpop : queue.pop? with
    | none =>
      rw [search_of_pop?_eq_none hpop]
      rw [Queue.pop?_eq_none_iff, hq, List.map_eq_nil_iff] at hpop
      subst hpop
      exact .inr ⟨hf.not_stopAt_of_nil, hlast⟩
    | some p =>
      obtain ⟨v, rest⟩ := p
      have hlist := Queue.toList_of_pop? hpop
      rw [hq] at hlist
      obtain ⟨⟨w, k⟩, more, rfl, rfl, hrest⟩ := List.map_eq_cons_iff.1 hlist
      rw [search_of_pop?_eq_some hpop] at hl ⊢
      cases hstop : stop w with
      | true =>
        left
        refine ⟨w, k, by simp, ⟨(hf.path (w, k) (by simp)).1, hstop, (hf.path (w, k) (by simp)).2⟩, ?_⟩
        intro s j hs
        exact hf.le_of_stopAt hs
      | false =>
        simp only [hstop, Bool.false_eq_true, if_false] at hl ⊢
        refine ih ?_ (hf.expand hstop) (by simp [hstop]) hl
        simp [← hrest, List.map_map, Function.comp_def]

/-- Once a node has left the queue there is a last one. -/
theorem isSome_last_search (limit : Nat) (h : last.isSome) :
    (search arcs stop limit queue marked last).last.isSome := by
  induction limit generalizing queue marked last with
  | zero => exact h
  | succ limit ih =>
    cases hpop : queue.pop? with
    | none => rwa [search_of_pop?_eq_none hpop]
    | some p =>
      obtain ⟨v, rest⟩ := p
      rw [search_of_pop?_eq_some hpop]
      split
      · rfl
      · exact ih rfl

/-- A search that was not cut off comes back with nothing only if nothing was waiting. -/
theorem last_search_eq_none_iff (limit : Nat) (hl : (search arcs stop limit queue marked none).limited = false) :
    (search arcs stop limit queue marked none).last = none ↔ queue.toList = [] := by
  rw [← Queue.pop?_eq_none_iff]
  cases hpop : queue.pop? with
  | none => simp [search_of_pop?_eq_none hpop]
  | some p =>
    obtain ⟨v, rest⟩ := p
    cases limit with
    | zero => simp [search_zero, hpop] at hl
    | succ limit =>
      rw [search_of_pop?_eq_some hpop]
      split
      · simp
      · simp only [reduceCtorEq, iff_false]
        exact Option.isSome_iff_ne_none.1 (isSome_last_search limit rfl)

end Search

end Trail

namespace Graph

variable {g : Graph} {n : NodeRef}

/-- `k` live edges that the search may cross, taken from target to source, lead from `n` to `m`. -/
inductive Backtrack (g : Graph) : Nat → NodeRef → NodeRef → Prop
  | stay (n : NodeRef) : Backtrack g 0 n n
  | step {k : Nat} {m : NodeRef} (e : Edge) :
      e ∈ g.edges.live → g.crossable e = true → Backtrack g k e.source m → Backtrack g (k + 1) e.target m

/-- A stop other than `n`, `k` steps back from `n`. -/
def StopBehind (g : Graph) (n : NodeRef) (k : Nat) (s : NodeRef) : Prop :=
  s ≠ n ∧ g.holds Node.isStop s = true ∧ g.Backtrack k n s

/-- Some edge that the search may cross enters `n`. -/
def HasProvenance (g : Graph) (n : NodeRef) : Prop := ∃ e ∈ g.edges.live, e.target = n ∧ g.crossable e = true

theorem mem_provenanceArcs {v w : NodeRef} :
    (v, w) ∈ g.provenanceArcs ↔ ∃ e ∈ g.edges.live, g.crossable e = true ∧ e.target = v ∧ e.source = w := by
  simp [provenanceArcs, and_assoc]

theorem loop_notMem_provenanceArcs (v : NodeRef) : (v, v) ∉ g.provenanceArcs := by
  rw [mem_provenanceArcs]
  rintro ⟨e, -, hc, rfl, hs⟩
  simp [crossable, Edge.isLoop, hs] at hc

theorem backtrack_iff_path {k : Nat} {m : NodeRef} : g.Backtrack k n m ↔ g.provenanceArcs.Path [] k n m := by
  constructor
  · intro h
    induction h with
    | stay n => exact .stay (by simp)
    | step e he hc _ ih => exact .step (by simp) (mem_provenanceArcs.2 ⟨e, he, hc, rfl, rfl⟩) ih
  · intro h
    induction h with
    | stay _ => exact .stay _
    | step _ ha _ ih =>
      obtain ⟨e, he, hc, rfl, rfl⟩ := mem_provenanceArcs.1 ha
      exact .step e he hc ih

theorem stopAt_iff_stopBehind {k : Nat} {s : NodeRef} :
    Trail.StopAt g.provenanceArcs (g.holds Node.isStop) n k s ↔ g.StopBehind n k s := by
  rw [Trail.StopAt, StopBehind, backtrack_iff_path]

theorem next_provenanceArcs_eq_nil_iff : g.provenanceArcs.next n = [] ↔ ¬g.HasProvenance n := by
  rw [List.eq_nil_iff_forall_not_mem]
  constructor
  · rintro h ⟨e, he, ht, hc⟩
    exact h e.source (Arcs.mem_next.2 (mem_provenanceArcs.2 ⟨e, he, hc, ht, rfl⟩))
  · intro h w hw
    obtain ⟨e, he, hc, ht, -⟩ := mem_provenanceArcs.1 (Arcs.mem_next.1 hw)
    exact h ⟨e, he, ht, hc⟩

theorem settled_provenance (hl : (g.provenance n).limited = false) :
    (∃ v k, (g.provenance n).last = some v ∧ g.StopBehind n k v ∧ ∀ s j, g.StopBehind n j s → k ≤ j) ∨
      (∀ s j, ¬g.StopBehind n j s) ∧ ∀ v, (g.provenance n).last = some v → g.holds Node.isStop v = false := by
  have h : Trail.Settled g.provenanceArcs (g.holds Node.isStop) n (g.provenance n).last :=
    Trail.settled_search _ (by simp [Function.comp_def]) (.init (loop_notMem_provenanceArcs n)) (by simp) hl
  simpa only [Trail.Settled, stopAt_iff_stopBehind] using h

theorem last_provenance_eq_none_iff (hl : (g.provenance n).limited = false) :
    (g.provenance n).last = none ↔ ¬g.HasProvenance n := by
  rw [← next_provenanceArcs_eq_nil_iff, ← Queue.toList_ofList (g.provenanceArcs.next n)]
  exact Trail.last_search_eq_none_iff _ hl

theorem isStop_of_isSlice {m : NodeRef} (h : g.holds Node.isSlice m = true) : g.holds Node.isStop m = true := by
  obtain ⟨node, hnode, hslice⟩ := holds_iff.1 h
  exact holds_iff.2 ⟨node, hnode, by simp [Node.isStop, hslice]⟩

theorem isRoot_of_isStop {m : NodeRef} (h : g.holds Node.isStop m = true) (hs : g.holds Node.isSlice m = false) :
    g.holds Node.isRoot m = true := by
  obtain ⟨node, hnode, hstop⟩ := holds_iff.1 h
  have hslice : node.isSlice = false := by simpa [holds, hnode] using hs
  exact holds_iff.2 ⟨node, hnode, by simpa [Node.isStop, hslice] using hstop⟩

theorem sliceMark?_eq_none {m : NodeRef} (h : g.holds Node.isSlice m = false) : g.sliceMark? m = none := by
  unfold holds at h
  unfold sliceMark?
  cases hm : g.node? m with
  | none => rfl
  | some node => simpa [hm, Node.isSlice] using h

theorem sliceRootOf_eq_some_iff (hn : g.holds Node.isSlice n = false) {r : NodeRef} :
    g.sliceRootOf n = some r ↔ (g.provenance n).last = some r ∧ g.holds Node.isSlice r = true := by
  simp [sliceRootOf, hn, Trail.sliceRoot?, Option.filter_eq_some_iff]

theorem classify_eq_unset_iff (hn : g.holds Node.isSlice n = false) :
    g.classify n = .unset ↔ (g.provenance n).last = none := by
  rw [classify, sliceMark?_eq_none hn]
  unfold Trail.resolution
  cases (g.provenance n).last with
  | none => simp
  | some v => cases h : g.sliceMark? v <;> simp [h]

/-- A slice root that was found is a stop such that none is nearer. -/
theorem nearest_of_sliceRootOf (hn : g.holds Node.isSlice n = false) (hl : (g.provenance n).limited = false)
    {r : NodeRef} (hr : g.sliceRootOf n = some r) :
    ∃ k, g.StopBehind n k r ∧ ∀ s j, g.StopBehind n j s → k ≤ j := by
  obtain ⟨hlast, hslice⟩ := (sliceRootOf_eq_some_iff hn).1 hr
  rcases settled_provenance hl with ⟨v, k, hv, hstop, hmin⟩ | ⟨-, hpass⟩
  · obtain rfl : r = v := Option.some.inj (hlast.symm.trans hv)
    exact ⟨k, hstop, hmin⟩
  · have := hpass r hlast
    simp [isStop_of_isSlice hslice] at this

/-- A slice root that is nearer than every other stop is found. -/
theorem sliceRootOf_of_nearest (hn : g.holds Node.isSlice n = false) (hl : (g.provenance n).limited = false)
    {r : NodeRef} {k : Nat} (hslice : g.holds Node.isSlice r = true) (hr : g.Backtrack k n r)
    (hmin : ∀ s j, s ≠ r → g.StopBehind n j s → k < j) : g.sliceRootOf n = some r := by
  have hne : r ≠ n := by
    rintro rfl
    simp [hn] at hslice
  have hbehind : g.StopBehind n k r := ⟨hne, isStop_of_isSlice hslice, hr⟩
  rcases settled_provenance hl with ⟨v, l, hv, hstop, hle⟩ | ⟨hnone, -⟩
  · by_cases hvr : v = r
    · subst hvr
      exact (sliceRootOf_eq_some_iff hn).2 ⟨hv, hslice⟩
    · have hlt := hmin v l hvr hstop
      have := hle r k hbehind
      omega
  · exact absurd hbehind (hnone r k)

/-- Where no slice root was found, there is no stop at all, or one that is no slice root and such that none is nearer. -/
theorem stop_of_sliceRootOf_eq_none (hn : g.holds Node.isSlice n = false) (hl : (g.provenance n).limited = false)
    (hr : g.sliceRootOf n = none) :
    (∀ s k, ¬g.StopBehind n k s) ∨
      ∃ s k, g.holds Node.isSlice s = false ∧ g.holds Node.isRoot s = true ∧ g.StopBehind n k s ∧
        ∀ t j, g.StopBehind n j t → k ≤ j := by
  rcases settled_provenance hl with ⟨v, k, hlast, hstop, hmin⟩ | ⟨hnone, -⟩
  · right
    have hslice : g.holds Node.isSlice v = false := by
      cases hs : g.holds Node.isSlice v with
      | false => rfl
      | true => simp [(sliceRootOf_eq_some_iff hn).2 ⟨hlast, hs⟩] at hr
    exact ⟨v, k, hslice, isRoot_of_isStop hstop.2.1 hslice, hstop, hmin⟩
  · exact .inl hnone

/-- Classification by the nearest slice root, for a node that is none itself and a search that was not cut off. -/
theorem nearest_slice_root (hn : g.holds Node.isSlice n = false) (hl : (g.provenance n).limited = false) :
    (g.classify n = .unset ↔ ¬g.HasProvenance n) ∧
    (∀ r, g.sliceRootOf n = some r → g.holds Node.isSlice r = true ∧
      ∃ k, g.Backtrack k n r ∧ ∀ s j, g.StopBehind n j s → k ≤ j) ∧
    (∀ r k, g.holds Node.isSlice r = true → g.Backtrack k n r →
      (∀ s j, s ≠ r → g.StopBehind n j s → k < j) → g.sliceRootOf n = some r) ∧
    (g.sliceRootOf n = none → g.HasProvenance n →
      (∀ s k, ¬g.StopBehind n k s) ∨
        ∃ s k, g.holds Node.isSlice s = false ∧ g.holds Node.isRoot s = true ∧ g.StopBehind n k s ∧
          ∀ t j, g.StopBehind n j t → k ≤ j) := by
  refine ⟨?_, ?_, ?_, ?_⟩
  · rw [classify_eq_unset_iff hn, last_provenance_eq_none_iff hl]
  · intro r hr
    obtain ⟨k, hstop, hmin⟩ := nearest_of_sliceRootOf hn hl hr
    exact ⟨((sliceRootOf_eq_some_iff hn).1 hr).2, k, hstop.2.2, hmin⟩
  · intro r k hslice hr hmin
    exact sliceRootOf_of_nearest hn hl hslice hr hmin
  · intro hr _
    exact stop_of_sliceRootOf_eq_none hn hl hr

/-- Two slice roots above node 5, the second one nearer, with a cycle, a loop and a parallel edge on the way. -/
def diamond : Graph :=
  let slice (t : Tier) : Node := { serial := 0, kind := .slice ⟨.tier t, some t, true⟩ }
  let statement : Node := { serial := 0, kind := .statement }
  let arcs := [(3, 5), (4, 5), (4, 5), (2, 3), (0, 2), (1, 4), (5, 3), (3, 3)]
  { nodes := #[slice .client, slice .server, statement, statement, statement, statement]
    edges := arcs.foldl (fun s a => s.add a.1 a.2 .control none) {} }

theorem nearest_slice_root_diamond :
    diamond.holds Node.isSlice 5 = false ∧ (diamond.provenance 5).limited = false ∧
      ∃ k, diamond.Backtrack k 5 1 ∧ ∀ s j, diamond.StopBehind 5 j s → k ≤ j := by
  have hn : diamond.holds Node.isSlice 5 = false := by decide
  have hl : (diamond.provenance 5).limited = false := by decide
  have hr : diamond.sliceRootOf 5 = some 1 := by decide
  exact ⟨hn, hl, ((nearest_slice_root hn hl).2.1 1 hr).2⟩

end Graph
end Tierwise
