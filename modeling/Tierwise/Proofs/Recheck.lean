import Tierwise.Proofs.Edit

/-! # A recheck and the read that follows it

A recheck passes over the remembered tag and answers with a fresh search, but only a declared tag is written back. Where
the search declares nothing, the tag remembered before stays, and the next read answers with it.
-/

namespace Tierwise

/-- A declared tag stands. Otherwise a tag that was kept is taken for declared. -/
def Resolution.orKept (r : Resolution) (kept : Option Tag) : Resolution :=
  if r.isDeclared then r else (kept.map declared).getD r

namespace Resolution

variable {r : Resolution} {kept : Option Tag}

theorem orKept_of_isDeclared (h : r.isDeclared = true) : r.orKept kept = r := by
  simp [orKept, h]

theorem orKept_none (r : Resolution) : r.orKept none = r := by
  simp [orKept]

theorem orKept_some {t : Tag} (h : r.isDeclared = false) : r.orKept (some t) = declared t := by
  simp [orKept, h]

/-- Only a kept tag can get in the way of a resolution, and only where that declares nothing itself. -/
theorem orKept_eq_iff : r.orKept kept = r ↔ r.isDeclared = true ∨ kept = none := by
  cases kept with
  | none => simp [orKept_none]
  | some t =>
    by_cases hr : r.isDeclared = true
    · simp [orKept_of_isDeclared hr, hr]
    · rw [orKept_some (by simpa using hr)]
      constructor
      · rintro rfl
        exact .inl rfl
      · rintro (h | h)
        · exact absurd h hr
        · cases h

/-- As a tag to work with, a kept tag goes unnoticed in one more case: it is the shared tag, for which an undetermined
node counts anyway. -/
theorem tag?_orKept_eq_iff : (r.orKept kept).tag? = r.tag? ↔
    r.isDeclared = true ∨ kept = none ∨ (r = undetermined ∧ kept = some Tag.shared) := by
  cases kept with
  | none => simp [orKept_none]
  | some t => cases r <;> simp [orKept, tag?, isDeclared]

end Resolution

theorem Graph.tag_memo (g : Graph) (n : NodeRef) : (g.memo n).tag = (g.node? n).bind (·.memo.tag) := by
  unfold memo
  cases g.node? n <;> rfl

namespace Query

variable {g : Graph} {n : NodeRef}

/-- Where no tag may be reused there is a search, and it leaves the tag that it declares. Where it declares none it
leaves all as it was. -/
theorem resolve_eq_search {recheck : Bool} (hs : g.sliceMark? n = none)
    (hm : ((g.node? n).bind (·.memo.tag)).filter (fun _ => !recheck) = none) :
    (resolve n recheck g).value = g.classify n ∧
      (resolve n recheck g).graph =
        match g.classify n with
        | .declared t => g.modifyMemo n fun m => { m with tag := some t }
        | _ => g := by
  rw [← resolution_provenance hs]
  cases hr : (g.provenance n).resolution g <;> simp [resolve, hs, hm, hr, keepResolution]

/-- A recheck answers with a fresh search. -/
theorem value_resolve_recheck (n : NodeRef) (g : Graph) : (resolve n true g).value = g.classify n := by
  cases hs : g.sliceMark? n with
  | some mark => simp [resolve, Graph.classify, hs]
  | none => exact (resolve_eq_search hs (by simp)).1

/-- A read answers with the remembered tag where there is one. -/
theorem value_resolve_read (hs : g.sliceMark? n = none) :
    (resolve n false g).value = ((g.memo n).tag.map .declared).getD (g.classify n) := by
  rw [Graph.tag_memo]
  cases hm : (g.node? n).bind (·.memo.tag) with
  | none => exact (resolve_eq_search hs (by simp [hm])).1
  | some t =>
    simp only [resolve, bind_apply, graph_apply, hs, hm]
    rfl

theorem value_resolve_after_recheck (n : NodeRef) (g : Graph) :
    (resolve n false (resolve n true g).graph).value = (g.classify n).orKept (g.memo n).tag := by
  have hbare := (faithful_resolve n true g).1
  have hsame := Graph.sameAnswers_of_forgetAll_eq hbare
  cases hs : g.sliceMark? n with
  | some mark =>
    have hc : g.classify n = .declared mark.tag := by rw [Graph.classify, hs]
    rw [hc, Resolution.orKept_of_isDeclared rfl]
    simp [resolve, hs]
  | none =>
    have hs' : (resolve n true g).graph.sliceMark? n = none := by
      rw [Graph.sliceMark?_congr hbare, hs]
    rw [value_resolve_read hs', hsame.classify, (resolve_eq_search hs (by simp)).2]
    cases hc : g.classify n with
    | declared t =>
      -- a node that is not there remembers nothing, and its read searches again
      rw [Resolution.orKept_of_isDeclared rfl, Graph.memo_modifyMemo]
      cases hn : g.node? n <;> simp [Graph.memo, hn]
    | undetermined => rfl
    | unset => rfl

end Query

namespace Graph

/-- The read that follows a recheck. It gives the answer of the recheck again unless that declares nothing and an older
tag is still remembered, in which case it gives the older tag. To forget the node first prevents that. -/
theorem read_after_recheck (g : Graph) (n : NodeRef) :
    let first := Query.resolve n true g
    let second := Query.resolve n false first.graph
    let tag := Query.tag n false first.graph
    let fresh := Query.resolve n true (g.forget n)
    first.value = g.classify n ∧
      second.value = first.value.orKept (g.memo n).tag ∧ tag.value = second.value.tag? ∧
      (second.value = first.value ↔ first.value.isDeclared = true ∨ (g.memo n).tag = none) ∧
      (tag.value = first.value.tag? ↔ first.value.isDeclared = true ∨ (g.memo n).tag = none ∨
        (first.value = .undetermined ∧ (g.memo n).tag = some Tag.shared)) ∧
      fresh.value = first.value ∧ (Query.resolve n false fresh.graph).value = fresh.value := by
  intro first second tag fresh
  have hfirst : first.value = g.classify n := Query.value_resolve_recheck n g
  have hsecond : second.value = first.value.orKept (g.memo n).tag := by
    rw [hfirst]
    exact Query.value_resolve_after_recheck n g
  have htag : tag.value = second.value.tag? := rfl
  have hsame := sameAnswers_of_forgetAll_eq (g.forgetAll_modifyMemo n fun _ => {})
  have hfresh : fresh.value = first.value := by
    rw [hfirst, ← hsame.classify]
    exact Query.value_resolve_recheck n (g.forget n)
  refine ⟨hfirst, hsecond, htag, ?_, ?_, hfresh, ?_⟩
  · rw [hsecond]
    exact Resolution.orKept_eq_iff
  · rw [htag, hsecond]
    exact Resolution.tag?_orKept_eq_iff
  · rw [Query.value_resolve_after_recheck, memo_forget, Resolution.orKept_none]
    exact (Query.value_resolve_recheck n (g.forget n)).symm

/-- A statement that was asked for its tag before it was cut off from the client root. -/
def detached : Graph :=
  Edit.applyAll empty [.addTierRoot .client, .addStatement none, .addEdge 0 1 .control none, .ask (.tag 1 false),
    .removeOut 0 1 none]

/-- The recheck of a detached statement finds nothing above it, and the next read gives the client tag all the same. -/
theorem read_after_recheck_detached : detached.Attained ∧ (Query.resolve 1 true detached).value = .unset ∧
    (Query.resolve 1 false (Query.resolve 1 true detached).graph).value = .declared (.tier .client) ∧
    (Query.tag 1 false (Query.resolve 1 true detached).graph).value = some (.tier .client) :=
  ⟨Attained.empty.applyAll (by decide), by decide, by decide, by decide⟩

end Graph

end Tierwise
