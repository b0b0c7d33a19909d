import Tierwise.Proofs.Anchors

/-! # All the anchors of a call

Slots and their owners may be many. The climb goes level by level, keeps no record of where it has been and may come
through a node again and again, so a level is described by the number of steps that lead to it: a frontier after `k`
levels consists of the calls that the start is nested in `k` deep.
-/

namespace Tierwise

namespace Graph

variable {g : Graph} {n m s up x : NodeRef} {k levels : Nat}

/-- A control edge leads from `u` to `v`. -/
def Controls (g : Graph) (u v : NodeRef) : Prop := ∃ e ∈ g.edges.live, e.target = v ∧ e.type = .control ∧ e.source = u

/-- The call controls an actual parameter that controls `n`. -/
def ArgumentOf (g : Graph) (n call : NodeRef) : Prop :=
  ∃ slot, (g.Controls slot n ∧ g.holds Node.isActual slot = true) ∧ g.Controls call slot ∧ g.holds Node.isCall call = true

/-- From `n` one comes to `m` by `k` steps, each from a node to a call that it is an argument of. -/
def NestedIn (g : Graph) : (k : Nat) → (n m : NodeRef) → Prop
  | 0, n, m => n = m
  | k + 1, n, m => ∃ up, g.ArgumentOf n up ∧ g.NestedIn k up m

/-- A statement, but no try statement, controls the node. -/
def StatementOver (g : Graph) (s x : NodeRef) : Prop :=
  g.Controls s x ∧ g.holds (fun s => s.isStatement && !s.hasConstruct Construct.isTry) s = true

/-- A node that is an argument of no call is anchored by the statements that control it, or by itself if there are none. -/
def AnchoredBy (g : Graph) (x m : NodeRef) : Prop :=
  (¬∃ up, g.ArgumentOf x up) ∧ (g.StatementOver m x ∨ m = x ∧ ¬∃ s, g.StatementOver s x)

theorem mem_outerCalls : up ∈ g.outerCalls n ↔ g.ArgumentOf n up := by
  simp only [outerCalls, argumentSlots, callsOf, List.mem_flatMap, List.mem_filter, mem_inNodes_control]
  exact Iff.rfl

theorem outerCalls_eq_nil_iff : g.outerCalls n = [] ↔ ¬∃ up, g.ArgumentOf n up := by
  simp only [List.eq_nil_iff_forall_not_mem, mem_outerCalls, not_exists]

theorem mem_statementsAbove : s ∈ g.statementsAbove x ↔ g.StatementOver s x := by
  simp only [statementsAbove, List.mem_filter, mem_inNodes_control]
  exact Iff.rfl

theorem mem_anchorsAt : m ∈ g.anchorsAt x ↔ g.AnchoredBy x m := by
  rw [AnchoredBy, ← outerCalls_eq_nil_iff]
  by_cases houter : g.outerCalls x = []
  · have habove : g.statementsAbove x = [] ↔ ¬∃ s, g.StatementOver s x := by
      simp only [List.eq_nil_iff_forall_not_mem, mem_statementsAbove, not_exists]
    rw [anchorsAt_of_outerCalls_eq_nil houter, ← habove, ← mem_statementsAbove]
    by_cases hnone : g.statementsAbove x = []
    · simp [houter, hnone]
    · simp [houter, hnone]
  · simp [anchorsAt_eq_nil houter, houter]

/-- A node that is an argument of no call is anchored. -/
theorem exists_anchoredBy (h : ¬∃ up, g.ArgumentOf n up) : ∃ m, g.AnchoredBy n m := by
  by_cases hs : ∃ s, g.StatementOver s n
  · obtain ⟨s, hs⟩ := hs
    exact ⟨s, h, .inl hs⟩
  · exact ⟨n, h, .inr ⟨rfl, hs⟩⟩

/-- What a climb of so many levels lists when it begins at `n`: what anchors the nodes that it comes to on these levels,
and the nodes that are left when the levels are used up. -/
def ClimbLists (g : Graph) (levels : Nat) (n m : NodeRef) : Prop :=
  (∃ k < levels, ∃ x, g.NestedIn k n x ∧ g.AnchoredBy x m) ∨ g.NestedIn levels n m

/-- The first level lists what anchors the start, and the others what is listed from the calls around it. -/
theorem climbLists_succ : g.ClimbLists (levels + 1) n m ↔
    g.AnchoredBy n m ∨ ∃ up, g.ArgumentOf n up ∧ g.ClimbLists levels up m := by
  constructor
  · rintro (⟨k, hk, x, hx, hm⟩ | ⟨up, hup, hm⟩)
    · cases k with
      | zero => exact .inl (hx ▸ hm)
      | succ k =>
        obtain ⟨up, hup, hx⟩ := hx
        exact .inr ⟨up, hup, .inl ⟨k, Nat.lt_of_succ_lt_succ hk, x, hx, hm⟩⟩
    · exact .inr ⟨up, hup, .inr hm⟩
  · rintro (hm | ⟨up, hup, ⟨k, hk, x, hx, hm⟩ | hm⟩)
    · exact .inl ⟨0, Nat.succ_pos levels, n, rfl, hm⟩
    · exact .inl ⟨k + 1, Nat.succ_lt_succ hk, x, ⟨up, hup, hx⟩, hm⟩
    · exact .inr ⟨up, hup, hm⟩

/-- A climb lists something, since a node that has no anchors leads up to calls, and what is left at the end is listed. -/
theorem exists_climbLists (g : Graph) (levels : Nat) (n : NodeRef) : ∃ m, g.ClimbLists levels n m := by
  induction levels generalizing n with
  | zero => exact ⟨n, .inr rfl⟩
  | succ levels ih =>
    by_cases hup : ∃ up, g.ArgumentOf n up
    · obtain ⟨up, hup⟩ := hup
      obtain ⟨m, hm⟩ := ih up
      exact ⟨m, climbLists_succ.2 (.inr ⟨up, hup, hm⟩)⟩
    · obtain ⟨m, hm⟩ := exists_anchoredBy hup
      exact ⟨m, climbLists_succ.2 (.inl hm)⟩

end Graph

namespace Anchors

open Tierwise.Graph

variable {g : Graph} {m : NodeRef} {levels : Nat} {found frontier : List NodeRef}

theorem nodup_climb (g : Graph) (levels : Nat) (found frontier : List NodeRef) :
    (climb g levels found frontier).nodes.Nodup := by
  induction levels generalizing found frontier with
  | zero => cases frontier <;> exact List.nodup_eraseDups _
  | succ levels ih =>
    cases frontier with
    | nil => exact List.nodup_eraseDups _
    | cons n rest => exact ih _ _

theorem mem_climb : m ∈ (climb g levels found frontier).nodes ↔ m ∈ found ∨ ∃ n ∈ frontier, g.ClimbLists levels n m := by
  induction levels generalizing found frontier with
  | zero =>
    cases frontier with
    | nil => simp
    | cons n rest => simp [climb, ClimbLists, NestedIn, List.mem_eraseDups]
  | succ levels ih =>
    by_cases hne : frontier = []
    · simp [hne]
    · rw [climb_succ hne, ih]
      simp only [List.mem_append, List.mem_flatMap, mem_anchorsAt, mem_outerCalls, climbLists_succ]
      grind

/-- A climb is cut off where nodes are left when its levels are used up. -/
theorem limited_climb_iff : (climb g levels found frontier).limited = true ↔
    ∃ n ∈ frontier, ∃ m, g.NestedIn levels n m := by
  induction levels generalizing found frontier with
  | zero =>
    cases frontier with
    | nil => simp
    | cons n rest => simp [climb, NestedIn]
  | succ levels ih =>
    by_cases hne : frontier = []
    · simp [hne]
    · rw [climb_succ hne, ih]
      simp only [List.mem_flatMap, mem_outerCalls, NestedIn]
      grind

end Anchors

namespace Graph

variable {g : Graph} {call m : NodeRef}

theorem mem_anchors : m ∈ (g.anchors call).nodes ↔ g.ClimbLists (g.callChainLimit + 1) call m := by
  simp [anchors, Anchors.mem_climb]

theorem nodup_anchors (g : Graph) (call : NodeRef) : (g.anchors call).nodes.Nodup :=
  Anchors.nodup_climb g (g.callChainLimit + 1) [] [call]

theorem limited_anchors_iff : (g.anchors call).limited = true ↔ ∃ m, g.NestedIn (g.callChainLimit + 1) call m := by
  simp [anchors, Anchors.limited_climb_iff]

theorem warnings_anchors_eq_nil_iff :
    (Query.anchors call g).warnings = [] ↔ ¬∃ m, g.NestedIn (g.callChainLimit + 1) call m := by
  rw [← limited_anchors_iff]
  simp [Query.anchors]

/-- A call has anchors, and none is listed twice. Listed are what anchors the nodes that the call is nested in, as deep as
the limit says, and beyond that the nodes one step further up, which are there only if the climb is cut off. -/
theorem anchors_exact (g : Graph) (call : NodeRef) :
    let limit := g.callChainLimit
    let listed := (Query.anchors call g).value
    listed ≠ [] ∧ listed.Nodup ∧
      (∀ m, m ∈ listed ↔
        (∃ k ≤ limit, ∃ x, g.NestedIn k call x ∧ g.AnchoredBy x m) ∨ g.NestedIn (limit + 1) call m) ∧
      ((Query.anchors call g).warnings = [] ↔ ¬∃ m, g.NestedIn (limit + 1) call m) := by
  intro limit listed
  have hlisted : listed = (g.anchors call).nodes := Query.value_anchors call g
  have hmem : ∀ m, m ∈ listed ↔ g.ClimbLists (limit + 1) call m := by
    intro m
    rw [hlisted, mem_anchors]
  refine ⟨?_, hlisted ▸ g.nodup_anchors call, fun m => ?_, warnings_anchors_eq_nil_iff⟩
  · obtain ⟨m, hm⟩ := g.exists_climbLists (limit + 1) call
    exact List.ne_nil_of_mem ((hmem m).2 hm)
  · simp only [hmem, ClimbLists, Nat.lt_succ_iff]

end Graph

end Tierwise
