import Tierwise.Proofs.Recheck

/-! # Reading tags

A read takes the remembered tag, right or wrong, and searches only where none is remembered, so what it writes is what
it would have answered anyway. Reads can therefore be put in any order: a tag reads the same after them as before. A
recheck is no read in this sense, since it replaces a remembered tag that is out of date.
-/

namespace Tierwise

namespace Graph

variable {g h k : Graph} {n : NodeRef}

/-- Only memos differ, and every node reads as it did. -/
def ReadsAlike (g h : Graph) : Prop :=
  h.forgetAll = g.forgetAll ∧ ∀ n, (Query.resolve n false h).value = (Query.resolve n false g).value

theorem ReadsAlike.refl (g : Graph) : g.ReadsAlike g := ⟨rfl, fun _ => rfl⟩

theorem ReadsAlike.trans (hgh : g.ReadsAlike h) (hhk : h.ReadsAlike k) : g.ReadsAlike k :=
  ⟨hhk.1.trans hgh.1, fun n => (hhk.2 n).trans (hgh.2 n)⟩

theorem ReadsAlike.tag (hgh : g.ReadsAlike h) (n : NodeRef) :
    (Query.tag n false h).value = (Query.tag n false g).value :=
  congrArg Resolution.tag? (hgh.2 n)

theorem value_resolve_of_sliceMark? {mark : SliceMark} (hs : g.sliceMark? n = some mark) :
    (Query.resolve n false g).value = .declared mark.tag := by
  simp [Query.resolve, hs]

/-- Writing on a node is no more than remembering if the node reads as it did, by its memo or by a search. -/
theorem readsAlike_modifyMemo {f : Memo → Memo}
    (hf : ((f (g.memo n)).tag.map .declared).getD (g.classify n) = ((g.memo n).tag.map .declared).getD (g.classify n)) :
    g.ReadsAlike (g.modifyMemo n f) := by
  have hbare := g.forgetAll_modifyMemo n f
  have hsame := sameAnswers_of_forgetAll_eq hbare
  refine ⟨hbare, fun m => ?_⟩
  cases hs : g.sliceMark? m with
  | some mark =>
    have hs' : (g.modifyMemo n f).sliceMark? m = some mark := by rw [sliceMark?_congr hbare, hs]
    rw [value_resolve_of_sliceMark? hs, value_resolve_of_sliceMark? hs']
  | none =>
    have hs' : (g.modifyMemo n f).sliceMark? m = none := by rw [sliceMark?_congr hbare, hs]
    rw [Query.value_resolve_read hs, Query.value_resolve_read hs', hsame.classify, memo_modifyMemo]
    by_cases hnm : n = m ∧ (g.node? m).isSome
    · rw [if_pos hnm, ← hnm.1, hf]
    · rw [if_neg hnm]

end Graph

namespace Query

open Tierwise.Graph (ReadsAlike readsAlike_modifyMemo)

theorem readsAlike_resolve (n : NodeRef) : Leaves ReadsAlike (resolve n false) := by
  intro g
  cases hs : g.sliceMark? n with
  | some mark => simpa [resolve, hs] using ReadsAlike.refl g
  | none =>
    cases hm : (g.node? n).bind (·.memo.tag) with
    | some t =>
      have hkept : (resolve n false g).graph = g := by
        simp only [resolve, bind_apply, graph_apply, hs, hm]
        rfl
      rw [hkept]
      exact ReadsAlike.refl g
    | none =>
      -- the search is made where nothing is remembered, and a read would have made it as well
      rw [(resolve_eq_search hs (by simp [hm])).2]
      cases hc : g.classify n with
      | declared t =>
        apply readsAlike_modifyMemo
        rw [Graph.tag_memo, hm, hc]
        rfl
      | undetermined => exact ReadsAlike.refl g
      | unset => exact ReadsAlike.refl g

theorem readsAlike_tier (n : NodeRef) : Leaves ReadsAlike (tier n) := by
  intro g
  rcases graph_tier n g with hg | hg
  · rw [hg]
    exact ReadsAlike.refl g
  · rw [hg]
    exact readsAlike_modifyMemo rfl

theorem readsAlike_enclosingObjectEntry (n : NodeRef) : Leaves ReadsAlike (enclosingObjectEntry n) := by
  intro g
  rcases graph_enclosingObjectEntry n g with hg | ⟨o, -, hg⟩
  · rw [hg]
    exact ReadsAlike.refl g
  · rw [hg]
    exact readsAlike_modifyMemo rfl

theorem respected_readsAlike : Respected ReadsAlike where
  refl := ReadsAlike.refl
  trans := ReadsAlike.trans
  resolve := readsAlike_resolve
  tier := readsAlike_tier
  enclosingObjectEntry := readsAlike_enclosingObjectEntry

end Query

namespace Graph

variable {g h : Graph}

/-- `h` comes from `g` by queries that replace no remembered tag, or by any queries if no memo of `g` is out of date. -/
def ReadOn (g h : Graph) : Prop :=
  ∃ queries, h = MemoQuery.afterAll g queries ∧ ((∀ q ∈ queries, q.reads = true) ∨ ∀ n, g.Coherent n)

theorem ReadOn.refl (g : Graph) : g.ReadOn g := ⟨[], rfl, .inl (by simp)⟩

theorem ReadOn.readsAlike (hgh : g.ReadOn h) : g.ReadsAlike h := by
  obtain ⟨queries, rfl, hreads | hright⟩ := hgh
  · exact Query.respected_readsAlike.afterAll_of_after (fun q hq => Query.respected_readsAlike.after (hreads q hq)) g
  · have hfresh := MemoQuery.refreshed_afterAll g queries
    refine ⟨hfresh.1, fun n => ?_⟩
    rw [Query.value_resolve (hright n), Query.value_resolve (hfresh.2 n (hright n)),
      (sameAnswers_of_forgetAll_eq hfresh.1).classify]

end Graph

end Tierwise
