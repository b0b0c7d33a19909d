import Tierwise.Proofs.Edit
import Tierwise.Proofs.NearestRoot
import Tierwise.Proofs.Slice.Walk

/-! # Two ways to say that a node belongs to a slice

The search goes up from the node and ends at the nearest root, the walk goes down from a root and lists what it reaches.
They take the same edges where provenance runs along control edges only, and then a node finds a root if and only if
some root lists it. The root that it finds is one of those.
-/

namespace Tierwise.Graph

variable {g : Graph} {n r : NodeRef}

/-- Loops apart, the search for a slice root may cross control edges and no others. -/
def ByControl (g : Graph) : Prop :=
  ∀ e ∈ g.edges.live, e.isLoop = false → (g.crossable e = true ↔ e.type = .control)
deriving Decidable

theorem isLoop_eq_false_of_crossable {e : Edge} (hc : g.crossable e = true) : e.isLoop = false := by
  unfold crossable at hc
  rw [Bool.and_eq_true, Bool.not_eq_true'] at hc
  exact hc.1

/-- The way up from `n` to another node is a way down from that node to `n`. -/
theorem ByControl.below_of_backtrack (hg : g.ByControl) {k : Nat} (h : g.Backtrack k n r) (hne : n ≠ r) :
    g.Below r n := by
  induction h with
  | stay n => exact absurd rfl hne
  | @step k r e he hc _ ih =>
    have hcontrol : e.type = .control := (hg e he (isLoop_eq_false_of_crossable hc)).1 hc
    have harc : (e.source, e.target) ∈ g.arcs .control := mem_arcs.2 ⟨e, he, hcontrol, rfl, rfl⟩
    by_cases hs : e.source = r
    · subst hs
      exact .single harc
    · exact (ih hs).tail harc

/-- A way down from `r` to `n` is a way up from `n` to `r`, once the loops on it are left out. -/
theorem ByControl.backtrack_of_below (hg : g.ByControl) (h : g.Below r n) : ∃ k, g.Backtrack k n r := by
  have hstep : ∀ {u v : NodeRef} {k : Nat}, (u, v) ∈ g.arcs .control → g.Backtrack k u r → ∃ k, g.Backtrack k v r := by
    intro u v k harc hu
    obtain ⟨e, he, hcontrol, rfl, rfl⟩ := mem_arcs.1 harc
    cases hloop : e.isLoop with
    | true =>
      have heq : e.source = e.target := by simpa [Edge.isLoop] using hloop
      exact ⟨k, heq ▸ hu⟩
    | false => exact ⟨k + 1, .step e he ((hg e he hloop).2 hcontrol) hu⟩
  induction h with
  | single harc => exact hstep harc (.stay r)
  | tail _ harc ih =>
    obtain ⟨k, hk⟩ := ih
    exact hstep harc hk

theorem holds_isRoot_eq_false (hroot : ∀ node ∈ g.nodes, node.isRoot = false) (m : NodeRef) :
    g.holds Node.isRoot m = false := by
  rw [Bool.eq_false_iff]
  intro h
  obtain ⟨node, hnode, hflag⟩ := holds_iff.1 h
  rw [hroot node (Array.mem_of_getElem? hnode)] at hflag
  cases hflag

/-- Where no other flag can stop it, the search finds a root if a root is above. -/
theorem isSome_sliceRootOf_of_backtrack (hroot : ∀ node ∈ g.nodes, node.isRoot = false)
    (hn : g.holds Node.isSlice n = false) (hl : (g.provenance n).limited = false) (hr : g.holds Node.isSlice r = true)
    {k : Nat} (h : g.Backtrack k n r) : (g.sliceRootOf n).isSome := by
  have hne : r ≠ n := by
    rintro rfl
    rw [hn] at hr
    cases hr
  rw [Option.isSome_iff_ne_none]
  intro hnone
  rcases stop_of_sliceRootOf_eq_none hn hl hnone with hno | ⟨s, -, -, hflag, -⟩
  · exact hno r k ⟨hne, isStop_of_isSlice hr, h⟩
  · rw [holds_isRoot_eq_false hroot] at hflag
    cases hflag

/-- Where provenance runs along control edges only and no node is flagged as a root, a node that is no slice root finds
one if and only if a slice root lists it, and then the root that it finds does. -/
theorem sliceRootOf_agrees_with_sliceNodes (hroot : ∀ node ∈ g.nodes, node.isRoot = false) (hg : g.ByControl)
    (hn : g.holds Node.isSlice n = false) (hl : (g.provenance n).limited = false)
    (hw : ∀ r, g.sliceRootOf n = some r → (g.sliceWalk r).limited = false) :
    ((g.sliceRootOf n).isSome ↔ ∃ r, g.holds Node.isSlice r = true ∧ n ∈ g.sliceNodes r) ∧
      ∀ r, g.sliceRootOf n = some r → g.holds Node.isSlice r = true ∧ n ∈ g.sliceNodes r := by
  have hfound : ∀ r, g.sliceRootOf n = some r → g.holds Node.isSlice r = true ∧ n ∈ g.sliceNodes r := by
    intro r hr
    obtain ⟨k, ⟨hne, -, hback⟩, -⟩ := nearest_of_sliceRootOf hn hl hr
    refine ⟨((sliceRootOf_eq_some_iff hn).1 hr).2, ?_⟩
    rw [mem_sliceNodes_iff (hw r hr)]
    exact hg.below_of_backtrack hback hne.symm
  refine ⟨⟨fun hsome => ?_, ?_⟩, hfound⟩
  · obtain ⟨r, hr⟩ := Option.isSome_iff_exists.1 hsome
    exact ⟨r, hfound r hr⟩
  · rintro ⟨r, hslice, hmem⟩
    obtain ⟨k, hk⟩ := hg.backtrack_of_below (below_of_mem_sliceNodes hmem)
    exact isSome_sliceRootOf_of_backtrack hroot hn hl hslice hk

/-- A server slice inside a client slice. Node 4 is below both roots, nodes 2 and 3 go in a circle, node 4 controls
itself, and node 5 hangs on a data edge only. -/
def nestedSlices : Graph :=
  Edit.applyAll empty [.addTierRoot .client, .addTierRoot .server, .addStatement none, .addStatement none,
    .addStatement none, .addStatement none, .addEdge 0 2 .control none, .addEdge 2 3 .control none,
    .addEdge 3 2 .control none, .addEdge 3 1 .control none, .addEdge 1 4 .control none, .addEdge 3 4 .control none,
    .addEdge 4 4 .control none, .addEdge 4 5 .data none]

theorem sliceRootOf_agrees_with_sliceNodes_nestedSlices :
    nestedSlices.Attained ∧ nestedSlices.sliceNodes 0 = [2, 3, 1, 4] ∧ nestedSlices.sliceRootOf 4 = some 1 ∧
      4 ∈ nestedSlices.sliceNodes 1 ∧
      ¬ ∃ r, nestedSlices.holds Node.isSlice r = true ∧ 5 ∈ nestedSlices.sliceNodes r := by
  have hattained : nestedSlices.Attained := Attained.empty.applyAll (by decide)
  have hroot : ∀ node ∈ nestedSlices.nodes, node.isRoot = false := by decide
  have hcontrol : nestedSlices.ByControl := by decide
  have hfour : nestedSlices.sliceRootOf 4 = some 1 := by decide
  have hfive : nestedSlices.sliceRootOf 5 = none := by decide
  have hserver : (nestedSlices.sliceWalk 1).limited = false := by decide
  have hagree := sliceRootOf_agrees_with_sliceNodes (n := 4) hroot hcontrol (by decide) (by decide)
    (by simpa [hfour] using hserver)
  have hnone := sliceRootOf_agrees_with_sliceNodes (n := 5) hroot hcontrol (by decide) (by decide) (by simp [hfive])
  refine ⟨hattained, by decide, hfour, (hagree.2 1 hfour).2, ?_⟩
  rw [← hnone.1, hfive]
  decide

end Tierwise.Graph
