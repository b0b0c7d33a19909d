import Tierwise.Construct

/-! # Breadth-first walks over a list of arcs -/

namespace Tierwise

/-- One-way steps between nodes, in the order in which a node's steps are tried. -/
abbrev Arcs := List (NodeRef × NodeRef)

namespace Arcs

def next (arcs : Arcs) (v : NodeRef) : List NodeRef :=
  (arcs.filter (·.1 == v)).map Prod.snd

def unseen (arcs : Arcs) (seen : List NodeRef) : Arcs :=
  arcs.filter fun a => !seen.contains a.1

theorem mem_next {arcs : Arcs} {v w : NodeRef} : w ∈ arcs.next v ↔ (v, w) ∈ arcs := by
  simp [next]

theorem length_unseen_cons (arcs : Arcs) {seen : List NodeRef} {v : NodeRef} (h : v ∉ seen) :
    (arcs.unseen (v :: seen)).length + (arcs.next v).length = (arcs.unseen seen).length := by
  induction arcs with
  | nil => rfl
  | cons a r ih =>
    simp only [unseen, next, List.length_map] at ih ⊢
    by_cases hv : a.1 = v
    · subst hv
      simp [h]
      simp at ih
      omega
    · by_cases hs : a.1 ∈ seen
      · simp [hv, hs]
        simpa using ih
      · simp [hv, hs]
        simp at ih
        omega

/-- The nodes that leave the queue for the first time, in order. A node counts as seen once it has left the queue, so
it may wait there more than once. -/
def order (arcs : Arcs) (seen : List NodeRef) : (queue : List NodeRef) → List NodeRef
  | [] => []
  | v :: rest =>
    if v ∈ seen then arcs.order seen rest
    else v :: arcs.order (v :: seen) (rest ++ arcs.next v)
termination_by queue => queue.length + (arcs.unseen seen).length
decreasing_by
  · simp
  · rename_i h
    have := arcs.length_unseen_cons h
    simp only [List.length_append, List.length_cons]
    omega

/-- Every node that steps from `start` lead to, nearest first, without `start` itself. -/
def beyond (arcs : Arcs) (start : NodeRef) : List NodeRef :=
  arcs.order [start] (arcs.next start)

end Arcs

end Tierwise
