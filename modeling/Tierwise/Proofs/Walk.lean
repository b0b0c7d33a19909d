import Mathlib.Logic.Function.Iterate
import Tierwise.Proofs.Path

/-! # What a walk lists, and in what order

A node may wait in the queue more than once and counts as seen only when it leaves, so distances are kept with the
places in the queue. What can be reached through the queue without touching a node that was seen is listed, nearest
first, and expanding the node at the front changes none of the shortest distances.
-/

namespace Tierwise.Arcs

variable {arcs : Arcs} {seen listed later rest queue : List NodeRef} {items : List (NodeRef × Nat)}
  {u v s start : NodeRef} {k c : Nat}

theorem order_nil : arcs.order seen [] = [] := by
  rw [order]

theorem order_cons_of_mem (hv : v ∈ seen) : arcs.order seen (v :: rest) = arcs.order seen rest := by
  rw [order, if_pos hv]

theorem order_cons_of_notMem (hv : v ∉ seen) :
    arcs.order seen (v :: rest) = v :: arcs.order (v :: seen) (rest ++ arcs.next v) := by
  rw [order, if_neg hv]

/-! ### Distances through a queue -/

/-- A path that keeps off the nodes seen leads from an item of the queue to `s`. The number that stands with the item and
the steps of the path make `c` together. -/
def Reached (arcs : Arcs) (seen : List NodeRef) (items : List (NodeRef × Nat)) (c : Nat) (s : NodeRef) : Prop :=
  ∃ p ∈ items, ∃ i, arcs.Path seen i p.1 s ∧ p.2 + i = c

/-- The queue after the node `v`, at distance `k`, was expanded. -/
def expanded (arcs : Arcs) (v : NodeRef) (k : Nat) (items : List (NodeRef × Nat)) : List (NodeRef × Nat) :=
  items ++ (arcs.next v).map fun w => (w, k + 1)

theorem map_fst_expanded : (arcs.expanded v k items).map Prod.fst = items.map Prod.fst ++ arcs.next v := by
  simp [expanded, Function.comp_def]

theorem not_reached_nil : ¬arcs.Reached seen [] c s := by
  rintro ⟨p, hp, -⟩
  cases hp

/-- An item that was seen already leads nowhere. -/
theorem reached_cons_of_mem (hv : v ∈ seen) : arcs.Reached seen ((v, k) :: items) c s ↔ arcs.Reached seen items c s := by
  constructor
  · rintro ⟨p, hp, i, hpath, hc⟩
    rcases List.mem_cons.1 hp with rfl | hp
    · exact absurd hv hpath.start_notMem
    · exact ⟨p, hp, i, hpath, hc⟩
  · rintro ⟨p, hp, hpath⟩
    exact ⟨p, List.mem_cons_of_mem _ hp, hpath⟩

theorem reached_head (hv : v ∉ seen) : arcs.Reached seen ((v, k) :: items) k v :=
  ⟨(v, k), List.mem_cons_self, 0, .stay hv, rfl⟩

/-- A path through the node that is expanded goes on from one of its successors, and is not longer then. -/
theorem Reached.expand (h : arcs.Reached seen ((v, k) :: items) c s) (hs : s ≠ v) (hlevel : Levelled ((v, k) :: items)) :
    ∃ d ≤ c, arcs.Reached (v :: seen) (arcs.expanded v k items) d s := by
  obtain ⟨p, hp, i, hpath, hc⟩ := h
  have hle : k ≤ p.2 := by
    rcases List.mem_cons.1 hp with rfl | hp
    · exact Nat.le_refl k
    · exact hlevel.le_of_mem hp
  rcases hpath.avoid (fun x => List.mem_cons) hs with hoff | ⟨w, j, ha, hoff, hj⟩
  · have hne : p ≠ (v, k) := by
      rintro rfl
      exact hoff.start_notMem List.mem_cons_self
    have hrest : p ∈ items := (List.mem_cons.1 hp).resolve_left hne
    exact ⟨c, Nat.le_refl c, p, List.mem_append_left _ hrest, i, hoff, hc⟩
  · -- What is left of the path after `v` is shorter than the path, and `v` is no further away than its item.
    have hw : (w, k + 1) ∈ arcs.expanded v k items := by
      apply List.mem_append_right
      exact List.mem_map.2 ⟨w, mem_next.2 ha, rfl⟩
    refine ⟨k + 1 + j, ?_, (w, k + 1), hw, j, hoff, rfl⟩
    omega

/-- What is reached after an expansion was reached before, at the same distance. -/
theorem Reached.unexpand (h : arcs.Reached (v :: seen) (arcs.expanded v k items) c s) (hv : v ∉ seen) :
    arcs.Reached seen ((v, k) :: items) c s := by
  obtain ⟨p, hp, i, hpath, hc⟩ := h
  have hold : arcs.Path seen i p.1 s := hpath.mono fun x hx => List.mem_cons_of_mem v hx
  rcases List.mem_append.1 hp with hp | hp
  · exact ⟨p, List.mem_cons_of_mem _ hp, i, hold, hc⟩
  · obtain ⟨w, hw, rfl⟩ := List.mem_map.1 hp
    refine ⟨(v, k), List.mem_cons_self, i + 1, .step hv (mem_next.1 hw) hold, ?_⟩
    dsimp only at hc ⊢
    omega

/-! ### Nodes in the order in which they are listed -/

/-- A walk lists what can be reached through its queue. -/
theorem mem_order_items (hlevel : Levelled items) :
    s ∈ arcs.order seen (items.map Prod.fst) ↔ ∃ c, arcs.Reached seen items c s := by
  generalize hqueue : items.map Prod.fst = queue
  induction seen, queue using order.induct arcs generalizing items with
  | case1 seen =>
    rw [List.map_eq_nil_iff.1 hqueue, order_nil]
    simp [not_reached_nil]
  | case2 seen v rest hv ih =>
    obtain ⟨⟨v, k⟩, items, rfl, rfl, rfl⟩ := List.map_eq_cons_iff.1 hqueue
    simp only [order_cons_of_mem hv, reached_cons_of_mem hv, ih hlevel.tail rfl]
  | case3 seen v rest hv ih =>
    obtain ⟨⟨v, k⟩, items, rfl, rfl, rfl⟩ := List.map_eq_cons_iff.1 hqueue
    rw [order_cons_of_notMem hv, List.mem_cons, ih (hlevel.append (arcs.next v)) map_fst_expanded]
    constructor
    · rintro (rfl | ⟨c, hc⟩)
      · exact ⟨k, reached_head hv⟩
      · exact ⟨c, hc.unexpand hv⟩
    · rintro ⟨c, hc⟩
      by_cases hs : s = v
      · exact .inl hs
      · obtain ⟨d, -, hd⟩ := hc.expand hs hlevel
        exact .inr ⟨d, hd⟩

/-- No node that is still missing from the list is nearer than the one which comes next. -/
theorem order_nearest (hlevel : Levelled items) (h : arcs.order seen (items.map Prod.fst) = listed ++ v :: later) :
    ∃ c, arcs.Reached seen items c v ∧ ∀ s d, s ∉ listed → arcs.Reached seen items d s → c ≤ d := by
  generalize hqueue : items.map Prod.fst = queue at h
  induction seen, queue using order.induct arcs generalizing items listed with
  | case1 seen =>
    rw [order_nil] at h
    simp at h
  | case2 seen u rest hu ih =>
    obtain ⟨⟨u, k⟩, items, rfl, rfl, rfl⟩ := List.map_eq_cons_iff.1 hqueue
    rw [order_cons_of_mem hu] at h
    simpa only [reached_cons_of_mem hu] using ih hlevel.tail rfl h
  | case3 seen u rest hu ih =>
    obtain ⟨⟨u, k⟩, items, rfl, rfl, rfl⟩ := List.map_eq_cons_iff.1 hqueue
    rw [order_cons_of_notMem hu] at h
    cases listed with
    | nil =>
      -- The front of the queue comes next, and every path begins at an item that is at least as far away.
      obtain ⟨rfl, -⟩ := List.cons.inj h
      refine ⟨k, reached_head hu, fun s d _ hd => ?_⟩
      obtain ⟨p, hp, i, -, rfl⟩ := hd
      rcases List.mem_cons.1 hp with rfl | hp
      · exact Nat.le_add_right k i
      · exact Nat.le_add_right_of_le (hlevel.le_of_mem hp)
    | cons first listed =>
      obtain ⟨rfl, hlater⟩ := List.cons.inj h
      obtain ⟨c, hc, hmin⟩ := ih (hlevel.append (arcs.next u)) map_fst_expanded hlater
      refine ⟨c, hc.unexpand hu, fun s d hs hd => ?_⟩
      rw [List.mem_cons, not_or] at hs
      obtain ⟨e, hle, he⟩ := hd.expand hs.1 hlevel
      exact Nat.le_trans (hmin s e hs.2 he) hle

/-- The nodes listed are the ends of the paths from a node of the queue that keep off the nodes seen. -/
theorem mem_order : v ∈ arcs.order seen queue ↔ ∃ u ∈ queue, ∃ k, arcs.Path seen k u v := by
  have hqueue : (queue.map fun w => (w, 0)).map Prod.fst = queue := by simp [Function.comp_def]
  rw [← hqueue, mem_order_items (.of_same 0 queue), hqueue]
  constructor
  · rintro ⟨c, p, hp, k, hpath, -⟩
    obtain ⟨u, hu, rfl⟩ := List.mem_map.1 hp
    exact ⟨u, hu, k, hpath⟩
  · rintro ⟨u, hu, k, hpath⟩
    exact ⟨0 + k, (u, 0), List.mem_map.2 ⟨u, hu, rfl⟩, k, hpath, rfl⟩

theorem notMem_seen_of_mem_order (h : v ∈ arcs.order seen queue) : v ∉ seen := by
  obtain ⟨u, -, k, hpath⟩ := mem_order.1 h
  exact hpath.end_notMem

theorem nodup_order (arcs : Arcs) (seen queue : List NodeRef) : (arcs.order seen queue).Nodup := by
  induction seen, queue using order.induct arcs with
  | case1 seen => exact order_nil.symm ▸ List.nodup_nil
  | case2 seen v rest hv ih => rwa [order_cons_of_mem hv]
  | case3 seen v rest hv ih =>
    rw [order_cons_of_notMem hv, List.nodup_cons]
    exact ⟨fun hmem => notMem_seen_of_mem_order hmem List.mem_cons_self, ih⟩

/-! ### Nodes that are dropped -/

/-- A walk that queues every successor and stops at the nodes which fail a test lists, but for those nodes, what the walk
lists that never queues them. The nodes that were dropped count as seen in the first walk only. -/
theorem filter_order {kept : Arcs} {p : NodeRef → Bool} {seen' : List NodeRef}
    (hkept : ∀ v, p v = true → kept.next v = (arcs.next v).filter p) (hstop : ∀ v, p v = false → arcs.next v = [])
    (hseen : ∀ v, p v = true → (v ∈ seen ↔ v ∈ seen')) :
    (arcs.order seen queue).filter p = kept.order seen' (queue.filter p) := by
  induction seen, queue using order.induct arcs generalizing seen' with
  | case1 seen => rw [order_nil, List.filter_nil, order_nil]
  | case2 seen v rest hv ih =>
    rw [order_cons_of_mem hv, ih hseen]
    by_cases hp : p v = true
    · rw [List.filter_cons_of_pos hp, order_cons_of_mem ((hseen v hp).1 hv)]
    · rw [List.filter_cons_of_neg hp]
  | case3 seen v rest hv ih =>
    rw [order_cons_of_notMem hv]
    by_cases hp : p v = true
    · have hv' : v ∉ seen' := fun hmem => hv ((hseen v hp).2 hmem)
      have hnext : ∀ w, p w = true → (w ∈ v :: seen ↔ w ∈ v :: seen') := by
        intro w hw
        rw [List.mem_cons, List.mem_cons, hseen w hw]
      rw [List.filter_cons_of_pos hp, List.filter_cons_of_pos hp, order_cons_of_notMem hv', ih hnext, List.filter_append,
        hkept v hp]
    · have hnext : ∀ w, p w = true → (w ∈ v :: seen ↔ w ∈ seen') := by
        intro w hw
        have hne : w ≠ v := by
          rintro rfl
          exact hp hw
        rw [List.mem_cons, or_iff_right hne, hseen w hw]
      rw [List.filter_cons_of_neg hp, List.filter_cons_of_neg hp, ih hnext, hstop v (Bool.eq_false_iff.2 hp),
        List.append_nil]

/-! ### Everything beyond a node -/

/-- A walk to everything beyond a node is the rest of a walk that starts there. -/
theorem order_singleton (arcs : Arcs) (start : NodeRef) : arcs.order [] [start] = start :: arcs.beyond start := by
  rw [order_cons_of_notMem List.not_mem_nil, List.nil_append, beyond]

theorem mem_beyond : v ∈ arcs.beyond start ↔ v ≠ start ∧ ∃ k, arcs.Path [] k start v := by
  have hwalk : v ∈ start :: arcs.beyond start ↔ ∃ k, arcs.Path [] k start v := by
    rw [← order_singleton, mem_order]
    simp
  rw [← hwalk, List.mem_cons]
  constructor
  · intro hv
    refine ⟨?_, .inr hv⟩
    rintro rfl
    exact notMem_seen_of_mem_order hv List.mem_cons_self
  · rintro ⟨hne, hv⟩
    exact hv.resolve_left hne

/-- Nodes beyond `start` come nearest first. -/
theorem beyond_nearest (h : arcs.beyond start = listed ++ v :: later) :
    ∃ k, arcs.Path [] k start v ∧ ∀ s j, s ≠ start → s ∉ listed → arcs.Path [] j start s → k ≤ j := by
  have hreached : ∀ c s, arcs.Reached [] [(start, 0)] c s ↔ arcs.Path [] c start s := by
    simp [Reached]
  have hwalk : arcs.order [] ([(start, 0)].map Prod.fst) = start :: listed ++ v :: later := by
    rw [List.cons_append, ← h]
    exact arcs.order_singleton start
  obtain ⟨k, hk, hmin⟩ := order_nearest (.of_same 0 [start]) hwalk
  refine ⟨k, (hreached k v).1 hk, fun s j hs hl hj => ?_⟩
  apply hmin s j _ ((hreached j s).2 hj)
  rw [List.mem_cons, not_or]
  exact ⟨hs, hl⟩

/-! ### Turns of the loop -/

/-- One turn of a walk, from the nodes seen and the queue to those that the next turn finds. -/
def turn (arcs : Arcs) : List NodeRef × List NodeRef → List NodeRef × List NodeRef
  | (seen, []) => (seen, [])
  | (seen, v :: rest) => if v ∈ seen then (seen, rest) else (v :: seen, rest ++ arcs.next v)

theorem iterate_turn_nil (arcs : Arcs) (seen : List NodeRef) (k : Nat) : arcs.turn^[k] (seen, []) = (seen, []) :=
  Function.iterate_fixed rfl k

/-- A walk is over after as many turns as there are nodes in the queue and arcs out of nodes that were not seen. What it
has seen then, it has listed. -/
theorem iterate_turn (h : queue.length + (arcs.unseen seen).length ≤ k) :
    arcs.turn^[k] (seen, queue) = ((arcs.order seen queue).reverse ++ seen, []) := by
  induction seen, queue using order.induct arcs generalizing k with
  | case1 seen => rw [iterate_turn_nil, order_nil, List.reverse_nil, List.nil_append]
  | case2 seen v rest hv ih =>
    rw [List.length_cons] at h
    obtain ⟨k, rfl⟩ : ∃ j, k = j + 1 := ⟨k - 1, by omega⟩
    have hturn : arcs.turn (seen, v :: rest) = (seen, rest) := if_pos hv
    rw [Function.iterate_succ_apply, hturn, order_cons_of_mem hv]
    apply ih
    omega
  | case3 seen v rest hv ih =>
    rw [List.length_cons] at h
    obtain ⟨k, rfl⟩ : ∃ j, k = j + 1 := ⟨k - 1, by omega⟩
    have hturn : arcs.turn (seen, v :: rest) = (v :: seen, rest ++ arcs.next v) := if_neg hv
    have harcs := arcs.length_unseen_cons hv
    rw [Function.iterate_succ_apply, hturn, order_cons_of_notMem hv, List.reverse_cons, List.append_assoc]
    apply ih
    rw [List.length_append]
    omega

end Tierwise.Arcs
