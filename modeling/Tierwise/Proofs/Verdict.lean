import Tierwise.Proofs.Slice.Traffic
import Tierwise.Proofs.TagLookup

/-! # The tag, the slice root and the tier of a node come from one search

They are different ways of reading its end. Either the search ends at a slice root, and then all of them are what that
root says, or there is neither root nor tier nor declared tag. Counting neighbours by tag and by slice root differs in
one point only: a node without a root whose search found something counts as shared.
-/

namespace Tierwise

/-- The node is a slice root of this tag. -/
def Node.carries (t : Tag) (a : Node) : Bool := a.sliceMark?.any (·.tag == t)

namespace Graph

variable {g : Graph} {n r : NodeRef}

/-- The two ways in which a search for a slice root can turn out. -/
inductive Verdict (g : Graph) (n : NodeRef) : Prop
  /-- All that is said of the node is what the root says. -/
  | root (r : NodeRef) (mark : SliceMark) : g.sliceRootOf n = some r → g.sliceMark? r = some mark →
      g.classify n = .declared mark.tag → g.tierOf n = mark.tier → Verdict g n
  | none : g.sliceRootOf n = none → (g.classify n).isDeclared = false → g.tierOf n = none → Verdict g n

theorem holds_isSlice (g : Graph) (n : NodeRef) : g.holds Node.isSlice n = (g.sliceMark? n).isSome := by
  unfold holds sliceMark?
  cases g.node? n <;> rfl

theorem verdict (g : Graph) (n : NodeRef) : g.Verdict n := by
  cases hn : g.sliceMark? n with
  | some mark =>
    apply Verdict.root n mark _ hn
    · rw [classify, hn]
    · rw [tierOf, hn]
    · simp [sliceRootOf, holds_isSlice, hn]
  | none =>
    cases hlast : (g.provenance n).last with
    | none =>
      apply Verdict.none
      · simp [sliceRootOf, holds_isSlice, hn, Trail.sliceRoot?, hlast]
      · simp [classify, hn, Trail.resolution, hlast, Resolution.isDeclared]
      · simp [tierOf, hn, Trail.tier?, hlast]
    | some v =>
      cases hv : g.sliceMark? v with
      | some mark =>
        apply Verdict.root v mark _ hv
        · simp [classify, hn, Trail.resolution, hlast, hv]
        · simp [tierOf, hn, Trail.tier?, hlast, hv]
        · simp [sliceRootOf, holds_isSlice, hn, Trail.sliceRoot?, hlast, hv]
      | none =>
        apply Verdict.none
        · simp [sliceRootOf, holds_isSlice, hn, Trail.sliceRoot?, hlast, hv]
        · simp [classify, hn, Trail.resolution, hlast, hv, Resolution.isDeclared]
        · simp [tierOf, hn, Trail.tier?, hlast, hv]

theorem classify_eq_declared_iff {t : Tag} :
    g.classify n = .declared t ↔ ∃ r, g.sliceRootOf n = some r ∧ g.rootTag? r = some t := by
  cases g.verdict n with
  | root r mark hroot hmark hclassify _ => simp [hroot, hclassify, rootTag?, hmark]
  | none hroot hclassify _ =>
    simp only [hroot, reduceCtorEq, false_and, exists_false, iff_false]
    intro h
    rw [h] at hclassify
    cases hclassify

theorem tierOf_of_sliceRootOf (hr : g.sliceRootOf n = some r) :
    ∃ mark, g.sliceMark? r = some mark ∧ g.tierOf n = mark.tier := by
  cases g.verdict n with
  | root s mark hroot hmark _ htier =>
    obtain rfl : s = r := Option.some.inj (hroot.symm.trans hr)
    exact ⟨mark, hmark, htier⟩
  | none hroot _ _ =>
    rw [hroot] at hr
    cases hr

theorem eq_none_of_not_declared (h : ∀ t, g.classify n ≠ .declared t) : g.sliceRootOf n = none ∧ g.tierOf n = none := by
  cases g.verdict n with
  | root r mark _ _ hclassify _ => exact absurd hclassify (h mark.tag)
  | none hroot _ htier => exact ⟨hroot, htier⟩

/-! ### Counting by tag and by root -/

/-- A node works under a tag if its slice root carries the tag or, for the shared tag alone, if it is undetermined. -/
theorem toNat_tag?_classify (g : Graph) (n : NodeRef) (t : Tag) :
    ((g.classify n).tag? == some t).toNat = (((g.sliceRootOf n).bind g.node?).any (Node.carries t)).toNat +
      (decide (t = Tag.shared) && decide (g.classify n = .undetermined)).toNat := by
  cases g.verdict n with
  | root r mark hroot hmark hclassify _ =>
    obtain ⟨a, ha, hslice⟩ := Option.bind_eq_some_iff.1 hmark
    simp [hroot, hclassify, ha, Node.carries, hslice, Resolution.tag?]
  | none hroot hclassify _ =>
    cases hc : g.classify n with
    | declared s =>
      rw [hc] at hclassify
      cases hclassify
    | undetermined =>
      have hshared : (Tag.shared == t) = decide (t = Tag.shared) := by rw [beq_eq_decide, decide_eq_decide, eq_comm]
      simp [hroot, Resolution.tag?, hshared]
    | unset => simp [hroot, Resolution.tag?]

theorem tagsRead_of_coherent (hright : ∀ n, g.Coherent n) (root : NodeRef) (type : EdgeType) (side : Side) :
    g.tagsRead root type side = (g.sliceNeighbours root type side).map fun m => (g.classify m).tag? := by
  apply List.map_congr_left
  intro m _
  exact congrArg Resolution.tag? (Query.value_resolve (hright m) false)

end Graph

namespace Query

theorem graph_sliceRootOf (n : NodeRef) (g : Graph) : (sliceRootOf n g).graph = g := by
  cases h : g.holds Node.isSlice n <;> simp [sliceRootOf, h]

theorem value_countBySliceRoot (root : NodeRef) (type : EdgeType) (p : Option Node → Bool) (side : Side) (g : Graph) :
    (countBySliceRoot root type p side g).value =
      (g.sliceNeighbours root type side).countP fun m => p ((g.sliceRootOf m).bind g.node?) := by
  have heach : (each sliceRootOf (g.sliceNeighbours root type side) g).value =
      (g.sliceNeighbours root type side).map fun m => (sliceRootOf m g).value :=
    value_each_of_leaves (R := Eq) (fun m h => (graph_sliceRootOf m h).symm) (fun m g h hgh => by rw [hgh]) _ g
  simp only [countBySliceRoot, bind_apply, graph_apply, pure_apply, value_sliceNeighbours, graph_sliceNeighbours, heach,
    List.countP_map, value_sliceRootOf]
  rfl

end Query

namespace Graph

variable {g : Graph}

theorem value_countTagged_of_coherent (hright : ∀ n, g.Coherent n) (root : NodeRef) (type : EdgeType) (side : Side)
    (t : Tag) :
    (Query.countTagged root type t side g).value =
      (Query.countBySliceRoot root type (fun a => a.any (Node.carries t)) side g).value +
        if t = Tag.shared then (g.sliceNeighbours root type side).countP fun m => g.classify m = .undetermined
        else 0 := by
  rw [Query.value_countTagged, Query.value_countBySliceRoot, tagsRead_of_coherent hright, List.count, List.countP_map,
    Function.comp_def, List.countP_eq_countP_add_countP _ fun m => g.toNat_tag?_classify m t]
  by_cases ht : t = Tag.shared
  · simp [ht]
  · simp [ht]

/-- All ways to a node's tag agree in a graph that can be reached. A tag is declared for a node if and only if the node
has a slice root of that tag. The root is the one found under the tag, and the tier is the one that it declares. Without a
declared tag there is neither root nor tier. Where no memo is out of date, neighbours that are counted by a tag are those
whose slice root carries it and, for the shared tag, those that are undetermined. -/
theorem routes_to_tag_agree (hg : g.Attained) :
    (∀ n t, g.classify n = .declared t ↔ ∃ r, g.sliceRootOf n = some r ∧ g.rootTag? r = some t) ∧
    (∀ n t r, g.classify n = .declared t → g.sliceRootOf n = some r →
      g.sliceRoot? t = some r ∧ ∃ mark, g.sliceMark? r = some mark ∧ g.tierOf n = mark.tier) ∧
    (∀ n, (∀ t, g.classify n ≠ .declared t) → g.sliceRootOf n = none ∧ g.tierOf n = none) ∧
    ((∀ n, g.Coherent n) → ∀ root type side t,
      (Query.countTagged root type t side g).value =
        (Query.countBySliceRoot root type (fun a => a.any (Node.carries t)) side g).value +
          if t = Tag.shared then (g.sliceNeighbours root type side).countP fun m => g.classify m = .undetermined
          else 0) := by
  refine ⟨fun n t => classify_eq_declared_iff, ?_, fun n => eq_none_of_not_declared, value_countTagged_of_coherent⟩
  intro n t r hdeclared hroot
  obtain ⟨s, hs, htag⟩ := classify_eq_declared_iff.1 hdeclared
  obtain rfl : s = r := Option.some.inj (hs.symm.trans hroot)
  exact ⟨hg.built.sliceRoot?_iff.2 ⟨t, htag, rfl⟩, tierOf_of_sliceRootOf hroot⟩

/-- Node 2 feeds a node under the shared root, a node under a program root, that one twice, and a node under no root. All
memos were forgotten before some of these nodes were asked for. -/
def sharedSources : Graph :=
  Edit.applyAll empty [.addTierRoot .client, .addTierRoot .shared, .addStatement none, .addStatement none,
    .addStatement none, .markRoot 4, .addStatement none, .addStatement none, .addEdge 0 2 .control none,
    .addEdge 1 3 .control none, .addEdge 4 5 .control none, .addEdge 2 3 .data none, .addEdge 2 5 .data none,
    .addEdge 2 5 .data none, .addEdge 2 6 .data none, .forgetAll, .ask (.tag 3 false), .ask (.isShared 5)]

theorem routes_to_tag_agree_sharedSources :
    sharedSources.Attained ∧ (∀ n, sharedSources.Coherent n) ∧
      (∃ r, sharedSources.sliceRootOf 3 = some r ∧ sharedSources.rootTag? r = some Tag.shared) ∧
      sharedSources.classify 5 = .undetermined ∧ sharedSources.sliceRootOf 5 = none ∧
      (Query.countTagged 0 .data Tag.shared .outgoing sharedSources).value =
        (Query.countBySliceRoot 0 .data (fun a => a.any (Node.carries Tag.shared)) .outgoing sharedSources).value + 2 := by
  have hattained : sharedSources.Attained := Attained.empty.applyAll (by decide +kernel)
  have hright : ∀ n, sharedSources.Coherent n := coherent_afterAll_forgetAll _ [.tag 3 false, .isShared 5]
  obtain ⟨hdeclared, -, hnone, hcount⟩ := routes_to_tag_agree hattained
  have hfive : sharedSources.classify 5 = .undetermined := by decide +kernel
  have htwo : (sharedSources.sliceNeighbours 0 .data .outgoing).countP
      (fun m => sharedSources.classify m = .undetermined) = 2 := by decide +kernel
  refine ⟨hattained, hright, (hdeclared 3 _).1 (by decide +kernel), hfive, (hnone 5 (by simp [hfive])).1, ?_⟩
  rw [hcount hright, if_pos rfl, htwo]

end Graph

end Tierwise
