import Mathlib.Logic.Relation
import Tierwise.Proofs.Edge.Order
import Tierwise.Proofs.Lists
import Tierwise.Slice

/-! # The walk over a slice

A node counts as seen once it is queued, so the nodes seen are those listed and those that wait, and none of them is
there twice. Only nodes below the root are listed, and all of them unless the walk is cut off.
-/

namespace Tierwise

/-- One or more arcs lead from `u` to `v`. -/
def Arcs.Leads (arcs : Arcs) : NodeRef → NodeRef → Prop := Relation.TransGen fun u v => (u, v) ∈ arcs

namespace SliceWalk

variable {arcs : Arcs} {root v : NodeRef} {listed queue rest : List NodeRef}

/-- The state of a walk from `root`: the nodes listed so far and those that wait. -/
structure Sweep (arcs : Arcs) (root : NodeRef) (listed queue : List NodeRef) : Prop where
  nodup : (listed ++ queue).Nodup
  leads : ∀ v ∈ listed ++ queue, arcs.Leads root v
  /-- Steps out of the root and out of listed nodes lead to nodes that were seen. -/
  closed : ∀ v, v = root ∨ v ∈ listed → ∀ w ∈ arcs.next v, w ∈ listed ++ queue

namespace Sweep

theorem init (arcs : Arcs) (root : NodeRef) : Sweep arcs root [] (arcs.next root).eraseDups where
  nodup := List.nodup_eraseDups _
  leads := by
    intro v hv
    apply Relation.TransGen.single
    exact Arcs.mem_next.1 (List.mem_eraseDups.1 hv)
  closed := by
    rintro v (rfl | hv) w hw
    · exact List.mem_eraseDups.2 hw
    · cases hv

/-- Listing the node at the front keeps the state. -/
theorem list (h : Sweep arcs root listed (v :: rest)) :
    Sweep arcs root (listed ++ [v])
      (rest ++ ((arcs.next v).filter fun w => !(listed ++ v :: rest).contains w).eraseDups) := by
  have hfresh : ∀ w, w ∈ ((arcs.next v).filter fun w => !(listed ++ v :: rest).contains w).eraseDups ↔
      w ∈ arcs.next v ∧ w ∉ listed ++ v :: rest := by
    intro w
    rw [List.mem_eraseDups, List.mem_filter, Bool.not_eq_true', List.contains_eq_mem, decide_eq_false_iff_not]
  have hnodup := List.nodup_eraseDups ((arcs.next v).filter fun w => !(listed ++ v :: rest).contains w)
  generalize ((arcs.next v).filter fun w => !(listed ++ v :: rest).contains w).eraseDups = fresh at hfresh hnodup ⊢
  have hseen : listed ++ [v] ++ (rest ++ fresh) = listed ++ v :: rest ++ fresh := by simp
  constructor
  · rw [hseen, List.nodup_append]
    refine ⟨h.nodup, hnodup, ?_⟩
    rintro a ha b hb rfl
    exact ((hfresh a).1 hb).2 ha
  · rw [hseen]
    intro w hw
    rcases List.mem_append.1 hw with hw | hw
    · exact h.leads w hw
    · apply (h.leads v (by simp)).tail
      exact Arcs.mem_next.1 ((hfresh w).1 hw).1
  · rw [hseen]
    intro u hu w hw
    by_cases huv : u = v
    · subst huv
      by_cases hold : w ∈ listed ++ u :: rest
      · exact List.mem_append_left _ hold
      · exact List.mem_append_right _ ((hfresh w).2 ⟨hw, hold⟩)
    · have hu' : u = root ∨ u ∈ listed := by simpa [huv] using hu
      exact List.mem_append_left _ (h.closed u hu' w hw)

/-- A walk goes on from one state to another, in which nodes wait if and only if it was cut off. -/
theorem run (h : Sweep arcs root listed queue) (limit : Nat) :
    ∃ left, Sweep arcs root (listed ++ (SliceWalk.run arcs limit (listed ++ queue) queue).nodes) left ∧
      (SliceWalk.run arcs limit (listed ++ queue) queue).limited = !left.isEmpty := by
  induction limit generalizing listed queue with
  | zero => exact ⟨queue, by simpa [SliceWalk.run] using h, rfl⟩
  | succ limit ih =>
    cases queue with
    | nil => exact ⟨[], by simpa [SliceWalk.run] using h, rfl⟩
    | cons v rest =>
      obtain ⟨left, hleft, hlimited⟩ := ih h.list
      refine ⟨left, ?_, ?_⟩
      · simpa [SliceWalk.run] using hleft
      · simpa [SliceWalk.run] using hlimited

/-- Where nothing waits, everything that arcs lead to is listed. -/
theorem mem_listed_iff (h : Sweep arcs root listed []) : v ∈ listed ↔ arcs.Leads root v := by
  have hseen : listed ++ [] = listed := List.append_nil listed
  constructor
  · intro hv
    exact h.leads v (hseen.symm ▸ hv)
  · intro hv
    induction hv with
    | single ha => exact hseen ▸ h.closed root (.inl rfl) _ (Arcs.mem_next.2 ha)
    | tail _ ha ih => exact hseen ▸ h.closed _ (.inr ih) _ (Arcs.mem_next.2 ha)

end Sweep

end SliceWalk

namespace Graph

variable {g : Graph} {root n : NodeRef}

theorem mem_arcs {type : EdgeType} {u v : NodeRef} :
    (u, v) ∈ g.arcs type ↔ ∃ e ∈ g.edges.live, e.type = type ∧ e.source = u ∧ e.target = v := by
  simp [arcs, and_assoc]

/-- Control edges, one or more, lead from `root` to `n`. -/
def Below (g : Graph) (root n : NodeRef) : Prop := (g.arcs .control).Leads root n

theorem sweep_sliceNodes (g : Graph) (root : NodeRef) :
    ∃ left, SliceWalk.Sweep (g.arcs .control) root (g.sliceNodes root) left ∧
      (g.sliceWalk root).limited = !left.isEmpty :=
  (SliceWalk.Sweep.init (g.arcs .control) root).run g.worklistLimit

/-- A walk lists only nodes below its root, also if it is cut off. -/
theorem below_of_mem_sliceNodes (hn : n ∈ g.sliceNodes root) : g.Below root n := by
  obtain ⟨left, hleft, -⟩ := g.sweep_sliceNodes root
  exact hleft.leads n (List.mem_append_left left hn)

theorem mem_sliceNodes_iff (hl : (g.sliceWalk root).limited = false) : n ∈ g.sliceNodes root ↔ g.Below root n := by
  obtain ⟨left, hleft, hlimited⟩ := g.sweep_sliceNodes root
  rw [hl] at hlimited
  have hnil : left = [] := by simpa using hlimited.symm
  subst hnil
  exact hleft.mem_listed_iff

end Graph

end Tierwise
