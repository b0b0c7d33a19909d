import Tierwise.Walk

/-! # Paths along arcs, with their lengths

A path may be asked to keep off some nodes, such as those that a search has marked already. The one thing to know about
such a path is what happens when a node is marked that it runs through: the part after the last visit is left, and it
starts at a successor of that node.
-/

namespace Tierwise.Arcs

variable {arcs : Arcs} {off : List NodeRef} {k l : Nat} {u v w : NodeRef}

/-- A path of `k` steps from `u` to `v` on which no node, the ends included, is in `off`. -/
inductive Path (arcs : Arcs) (off : List NodeRef) : Nat → NodeRef → NodeRef → Prop
  | stay {v : NodeRef} : v ∉ off → Path arcs off 0 v v
  | step {k : Nat} {u w v : NodeRef} : u ∉ off → (u, w) ∈ arcs → Path arcs off k w v → Path arcs off (k + 1) u v

namespace Path

theorem start_notMem (h : arcs.Path off k u v) : u ∉ off := by
  cases h with
  | stay h => exact h
  | step h _ _ => exact h

theorem end_notMem (h : arcs.Path off k u v) : v ∉ off := by
  induction h with
  | stay h => exact h
  | step _ _ _ ih => exact ih

theorem mono {off' : List NodeRef} (h : arcs.Path off' k u v) (hoff : off ⊆ off') : arcs.Path off k u v := by
  induction h with
  | stay hv => exact .stay fun hmem => hv (hoff hmem)
  | step hu ha _ ih => exact .step (fun hmem => hu (hoff hmem)) ha ih

theorem trans (h : arcs.Path off k u v) (h' : arcs.Path off l v w) : arcs.Path off (k + l) u w := by
  induction h with
  | stay _ => rwa [Nat.zero_add]
  | step hu ha _ ih =>
    rw [Nat.succ_add]
    exact .step hu ha (ih h')

theorem snoc (h : arcs.Path [] k u v) (ha : (v, w) ∈ arcs) : arcs.Path [] (k + 1) u w :=
  h.trans (.step (by simp) ha (.stay (by simp)))

/-- A path that runs through a node which is now to be avoided goes on from a successor of that node. -/
theorem avoid {off' : List NodeRef} {s : NodeRef} (hoff : ∀ x, x ∈ off' ↔ x = v ∨ x ∈ off)
    (h : arcs.Path off k u s) (hs : s ≠ v) :
    arcs.Path off' k u s ∨ ∃ w j, (v, w) ∈ arcs ∧ arcs.Path off' j w s ∧ j < k := by
  induction h with
  | @stay s hn =>
    left
    refine .stay ?_
    rw [hoff]
    simp [hs, hn]
  | @step k u w s hu ha _ ih =>
    rcases ih hs with hp | ⟨x, j, hx, hp, hj⟩
    · by_cases huv : u = v
      · subst huv
        exact .inr ⟨w, k, ha, hp, Nat.lt_succ_self k⟩
      · left
        refine .step ?_ ha hp
        rw [hoff]
        simp [huv, hu]
    · exact .inr ⟨x, j, hx, hp, Nat.lt_succ_of_lt hj⟩

end Path

/-! ### Queues with distances -/

/-- Distances never fall from front to back and differ by one at most. -/
def Levelled (items : List (NodeRef × Nat)) : Prop := items.Pairwise fun p q => p.2 ≤ q.2 ∧ q.2 ≤ p.2 + 1

namespace Levelled

variable {rest : List (NodeRef × Nat)}

theorem of_same (k : Nat) (ws : List NodeRef) : Levelled (ws.map fun w => (w, k)) := by
  apply List.pairwise_map.2
  exact List.pairwise_of_forall fun _ _ => ⟨Nat.le_refl k, Nat.le_succ k⟩

theorem tail (h : Levelled ((v, k) :: rest)) : Levelled rest := (List.pairwise_cons.1 h).2

theorem le_of_mem (h : Levelled ((v, k) :: rest)) {p : NodeRef × Nat} (hp : p ∈ rest) : k ≤ p.2 :=
  ((List.pairwise_cons.1 h).1 p hp).1

/-- The successors of the node at the front are queued one step further away. -/
theorem append (h : Levelled ((v, k) :: rest)) (ws : List NodeRef) :
    Levelled (rest ++ ws.map fun w => (w, k + 1)) := by
  apply List.pairwise_append.2
  refine ⟨h.tail, of_same (k + 1) ws, fun p hp q hq => ?_⟩
  obtain ⟨w, -, rfl⟩ := List.mem_map.1 hq
  have hlevel := (List.pairwise_cons.1 h).1 p hp
  dsimp only at hlevel ⊢
  omega

end Levelled

end Tierwise.Arcs
