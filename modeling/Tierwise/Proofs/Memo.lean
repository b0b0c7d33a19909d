import Tierwise.Proofs.Forget
import Tierwise.Proofs.Leave

/-! # What queries leave on a node is what a search would find

A query may write memos on any node, but it writes only answers that are right for the graph as it is, so a memo that
was right stays right. A memo that is out of date harms its own node alone, because a search never looks at memos.
-/

namespace Tierwise

/-- Everything that is remembered of a node is what a search finds now. -/
structure Memo.Sound (g : Graph) (n : NodeRef) (m : Memo) : Prop where
  tag : ∀ t, m.tag = some t → g.classify n = .declared t
  tier : ∀ t, m.tier = some t → g.tierOf n = t
  objectEntry : ∀ o, m.objectEntry = some o → g.enclosingObjectEntry n = some o

namespace Graph

variable {g h k : Graph} {n : NodeRef}

/-- The memo of a node, empty where there is no node. -/
def memo (g : Graph) (n : NodeRef) : Memo := ((g.node? n).map Node.memo).getD {}

theorem memo_eq_some_of_bind {α : Type} {a : α} {p : Memo → Option α}
    (h : ((g.node? n).bind fun node => p node.memo) = some a) : p (g.memo n) = some a := by
  obtain ⟨node, hnode, ha⟩ := Option.bind_eq_some_iff.1 h
  simpa [memo, hnode] using ha

theorem memo_modifyMemo (g : Graph) (n m : NodeRef) (f : Memo → Memo) :
    (g.modifyMemo n f).memo m = if n = m ∧ (g.node? m).isSome then f (g.memo m) else g.memo m := by
  unfold memo modifyMemo
  rw [node?_modifyNode]
  by_cases hnm : n = m
  · cases g.node? m <;> simp [hnm, Node.modifyMemo]
  · simp [hnm]

theorem memo_forgetAll (g : Graph) (n : NodeRef) : g.forgetAll.memo n = {} := by
  unfold memo
  rw [node?_forgetAll]
  cases g.node? n <;> rfl

theorem memo_forget (g : Graph) (n : NodeRef) : (g.forget n).memo n = {} := by
  unfold forget
  rw [memo_modifyMemo]
  cases hn : g.node? n <;> simp [memo, hn]

@[simp] theorem forgetAll_modifyMemo (g : Graph) (n : NodeRef) (f : Memo → Memo) :
    (g.modifyMemo n f).forgetAll = g.forgetAll := by
  unfold forgetAll modifyMemo modifyNode
  congr 1
  apply Array.ext_getElem?
  intro m
  simp only [Array.getElem?_map, Array.getElem?_modify]
  split
  · rw [Option.map_map]
    rfl
  · rfl

@[simp] theorem forgetAll_forgetAll (g : Graph) : g.forgetAll.forgetAll = g.forgetAll := by
  simp only [forgetAll, Array.map_map]
  rfl

/-- The memo of `n` is right for the graph as it is. -/
def Coherent (g : Graph) (n : NodeRef) : Prop := (g.memo n).Sound g n

/-- Only memos differ, and those that were right still are. -/
def Refreshed (g h : Graph) : Prop := h.forgetAll = g.forgetAll ∧ ∀ n, g.Coherent n → h.Coherent n

theorem Refreshed.refl (g : Graph) : Refreshed g g := ⟨rfl, fun _ hn => hn⟩

theorem Refreshed.trans (hgh : Refreshed g h) (hhk : Refreshed h k) : Refreshed g k :=
  ⟨hhk.1.trans hgh.1, fun n hn => hhk.2 n (hgh.2 n hn)⟩

theorem coherent_of_memo_eq (hm : g.memo n = {}) : g.Coherent n := by
  unfold Coherent
  rw [hm]
  constructor <;> simp

end Graph

theorem Memo.Sound.congr {g h : Graph} {n : NodeRef} {m : Memo} (hm : m.Sound g n)
    (he : h.forgetAll = g.forgetAll) : m.Sound h n := by
  have hs := Graph.sameAnswers_of_forgetAll_eq he
  constructor
  · intro t ht
    rw [hs.classify, hm.tag t ht]
  · intro t ht
    rw [hs.tierOf, hm.tier t ht]
  · intro o ho
    rw [hs.enclosingObjectEntry, hm.objectEntry o ho]

/-- Writing on a node is harmless if a right memo is turned into a right one. -/
theorem Graph.refreshed_modifyMemo {g : Graph} {n : NodeRef} {f : Memo → Memo}
    (hf : ∀ m : Memo, m.Sound g n → (f m).Sound g n) : g.Refreshed (g.modifyMemo n f) := by
  refine ⟨g.forgetAll_modifyMemo n f, fun m hm => ?_⟩
  refine Memo.Sound.congr ?_ (g.forgetAll_modifyMemo n f)
  rw [memo_modifyMemo]
  split
  · rename_i hnm
    obtain ⟨rfl, -⟩ := hnm
    exact hf _ hm
  · exact hm

namespace Query

open Tierwise.Graph (Refreshed)

variable {α : Type} {q : Query α}

/-- Whatever the query leaves on the graph is right. -/
def Faithful (q : Query α) : Prop := Leaves Refreshed q

/-- A query that writes on one node, and there turns right memos into right ones. -/
theorem faithful_of_modifyMemo (n : NodeRef) (h : ∀ g : Graph, (q g).graph = g ∨
    ∃ f, (q g).graph = g.modifyMemo n f ∧ ∀ m : Memo, m.Sound g n → (f m).Sound g n) : Faithful q := by
  intro g
  rcases h g with hg | ⟨f, hg, hf⟩
  · rw [hg]
    exact Refreshed.refl g
  · rw [hg]
    exact Graph.refreshed_modifyMemo hf

/-! ### Tags -/

theorem resolution_provenance {g : Graph} {n : NodeRef} (h : g.sliceMark? n = none) :
    (g.provenance n).resolution g = g.classify n := by
  rw [Graph.classify, h]

/-- A search that ends at a slice root leaves the tag, and nothing else is ever left. -/
theorem graph_resolve (n : NodeRef) (recheck : Bool) (g : Graph) :
    (resolve n recheck g).graph = g ∨
      ∃ t, g.classify n = .declared t ∧ (resolve n recheck g).graph = g.modifyMemo n fun m => { m with tag := some t } := by
  cases hs : g.sliceMark? n with
  | some mark => simp [resolve, hs]
  | none =>
    cases hm : ((g.node? n).bind (·.memo.tag)).filter fun _ => !recheck with
    | some t => simp [resolve, hs, hm]
    | none =>
      rw [← resolution_provenance hs]
      cases hr : (g.provenance n).resolution g <;> simp [resolve, hs, hm, hr, keepResolution]

theorem faithful_resolve (n : NodeRef) (recheck : Bool) : Faithful (resolve n recheck) := by
  refine faithful_of_modifyMemo n fun g => (graph_resolve n recheck g).imp_right ?_
  rintro ⟨t, ht, hg⟩
  exact ⟨_, hg, fun m hm => ⟨by simp [ht], hm.tier, hm.objectEntry⟩⟩

theorem value_resolve {g : Graph} {n : NodeRef} (hn : g.Coherent n) (recheck : Bool) :
    (resolve n recheck g).value = g.classify n := by
  cases hs : g.sliceMark? n with
  | some mark => simp [resolve, Graph.classify, hs]
  | none =>
    cases hm : ((g.node? n).bind (·.memo.tag)).filter fun _ => !recheck with
    | some t =>
      have ht := Graph.memo_eq_some_of_bind (p := Memo.tag) (Option.filter_eq_some_iff.1 hm).1
      simp [resolve, hs, hm, hn.tag t ht]
    | none => simp [resolve, hs, hm, resolution_provenance hs]

/-! ### Tiers -/

theorem graph_tier (n : NodeRef) (g : Graph) :
    (tier n g).graph = g ∨ (tier n g).graph = g.modifyMemo n fun m => { m with tier := some (g.tierOf n) } := by
  cases hm : (g.node? n).bind (·.memo.tier) with
  | some t => simp [tier, hm]
  | none => simp [tier, hm, value_tierOf, graph_tierOf]

theorem faithful_tier (n : NodeRef) : Faithful (tier n) := by
  refine faithful_of_modifyMemo n fun g => (graph_tier n g).imp_right fun hg => ?_
  exact ⟨_, hg, fun m hm => ⟨hm.tag, by simp, hm.objectEntry⟩⟩

theorem value_tier {g : Graph} {n : NodeRef} (hn : g.Coherent n) : (tier n g).value = g.tierOf n := by
  cases hm : (g.node? n).bind (·.memo.tier) with
  | some t =>
    have ht := Graph.memo_eq_some_of_bind (p := Memo.tier) hm
    simp [tier, hm, hn.tier t ht]
  | none => simp [tier, hm, value_tierOf]

/-! ### Object entries -/

theorem graph_enclosingObjectEntry (n : NodeRef) (g : Graph) :
    (enclosingObjectEntry n g).graph = g ∨ ∃ o, g.enclosingObjectEntry n = some o ∧
      (enclosingObjectEntry n g).graph = g.modifyMemo n fun m => { m with objectEntry := some o } := by
  cases hm : (g.node? n).bind (·.memo.objectEntry) with
  | some o => simp [enclosingObjectEntry, hm]
  | none => cases ho : g.enclosingObjectEntry n <;> simp [enclosingObjectEntry, hm, ho]

theorem faithful_enclosingObjectEntry (n : NodeRef) : Faithful (enclosingObjectEntry n) := by
  refine faithful_of_modifyMemo n fun g => (graph_enclosingObjectEntry n g).imp_right ?_
  rintro ⟨o, ho, hg⟩
  exact ⟨_, hg, fun m hm => ⟨hm.tag, hm.tier, by simp [ho]⟩⟩

theorem value_enclosingObjectEntry {g : Graph} {n : NodeRef} (hn : g.Coherent n) :
    (enclosingObjectEntry n g).value = g.enclosingObjectEntry n := by
  cases hm : (g.node? n).bind (·.memo.objectEntry) with
  | some o =>
    have ho := Graph.memo_eq_some_of_bind (p := Memo.objectEntry) hm
    simp [enclosingObjectEntry, hm, hn.objectEntry o ho]
  | none => cases ho : g.enclosingObjectEntry n <;> simp [enclosingObjectEntry, hm, ho]

/-! ### All queries -/

theorem respected_refreshed : Respected Refreshed where
  refl := Refreshed.refl
  trans := Refreshed.trans
  resolve n := faithful_resolve n false
  tier := faithful_tier
  enclosingObjectEntry := faithful_enclosingObjectEntry

theorem graph_reclassify (n : NodeRef) (g : Graph) :
    (reclassify n g).graph = g.modifyMemo n fun _ => Memo.ofFindings (g.classify n) (g.tierOf n) := by
  simp [reclassify, value_classify, graph_classify, value_tierOf, graph_tierOf]

theorem sound_ofFindings (g : Graph) (n : NodeRef) : (Memo.ofFindings (g.classify n) (g.tierOf n)).Sound g n := by
  constructor
  · intro t ht
    cases hc : g.classify n <;> simp_all [Memo.ofFindings]
  · intro t ht
    simpa [Memo.ofFindings] using ht
  · intro o ho
    simp [Memo.ofFindings] at ho

theorem faithful_reclassify (n : NodeRef) : Faithful (reclassify n) := by
  refine faithful_of_modifyMemo n fun g => .inr ?_
  exact ⟨_, graph_reclassify n g, fun _ _ => sound_ofFindings g n⟩

theorem faithful_classifyProgram : Faithful classifyProgram := by
  unfold classifyProgram
  refine respected_refreshed.bind respected_refreshed.graph fun g => ?_
  refine respected_refreshed.bind (respected_refreshed.each faithful_reclassify _) fun found => ?_
  exact respected_refreshed.bind respected_refreshed.graph fun _ => respected_refreshed.pure _

end Query

namespace MemoQuery

open Tierwise.Query (respected_refreshed)

theorem refreshed_after (g : Graph) (q : MemoQuery) : g.Refreshed (q.after g) := by
  cases hq : q.reads with
  | true => exact respected_refreshed.after hq g
  | false =>
    -- what is left are the rechecks and the classification of the whole program
    cases q with
    | resolve n recheck => exact Query.faithful_resolve n recheck g
    | tag n recheck =>
      exact respected_refreshed.bind (Query.faithful_resolve n recheck) (fun _ => respected_refreshed.pure _) g
    | classifyProgram => exact Query.faithful_classifyProgram g
    | _ => cases hq

theorem refreshed_afterAll (g : Graph) (queries : List MemoQuery) : g.Refreshed (afterAll g queries) :=
  respected_refreshed.afterAll_of_after (fun q _ h => refreshed_after h q) g

end MemoQuery

/-- No memo is out of date where all was forgotten and only queries came after. -/
theorem Graph.coherent_afterAll_forgetAll (g : Graph) (queries : List MemoQuery) (n : NodeRef) :
    (MemoQuery.afterAll g.forgetAll queries).Coherent n :=
  (MemoQuery.refreshed_afterAll g.forgetAll queries).2 n (coherent_of_memo_eq (g.memo_forgetAll n))

/-- Once a node was forgotten, the queries with memory agree with the searches on it, whatever was asked before, in
whatever order, and whatever other nodes remember. The searches themselves answer as before on every node. -/
theorem Graph.memo_coherence {g start : Graph} {n : NodeRef} (hstart : start = g.forget n ∨ start = g.forgetAll)
    (queries : List MemoQuery) :
    let h := MemoQuery.afterAll start queries
    (Query.resolve n false h).value = h.classify n ∧ (Query.tier n h).value = h.tierOf n ∧
      (Query.enclosingObjectEntry n h).value = h.enclosingObjectEntry n ∧ g.SameAnswers h := by
  have hbare : start.forgetAll = g.forgetAll := by
    rcases hstart with rfl | rfl
    · exact g.forgetAll_modifyMemo n _
    · exact g.forgetAll_forgetAll
  have hmemo : start.memo n = {} := by
    rcases hstart with rfl | rfl
    · exact g.memo_forget n
    · exact g.memo_forgetAll n
  obtain ⟨hsame, hkept⟩ := MemoQuery.refreshed_afterAll start queries
  have hn := hkept n (coherent_of_memo_eq hmemo)
  exact ⟨Query.value_resolve hn false, Query.value_tier hn, Query.value_enclosingObjectEntry hn,
    sameAnswers_of_forgetAll_eq (hsame.trans hbare)⟩

/-- Two statements one below the other under a server root, both of which remember that they run on the client. -/
def Graph.outdated : Graph :=
  let memo : Memo := { tag := some (.tier .client), tier := some (some .client), objectEntry := some 0 }
  let statement : Node := { serial := 0, kind := .statement, memo := memo }
  { nodes := #[{ serial := 0, kind := .slice ⟨.tier .server, some .server, true⟩ }, statement, statement]
    edges := (EdgeStore.add {} 0 1 .control none).add 1 2 .control none }

theorem Graph.memo_coherence_outdated :
    let h := MemoQuery.afterAll (Graph.outdated.forget 2) [.sameTag 1 2, .isShared 2, .resolve 2 true, .tier 1]
    (h.memo 1).tag = some (.tier .client) ∧ h.classify 2 = .declared (.tier .server) ∧
      (Query.resolve 2 false h).value = h.classify 2 ∧ (Query.tier 2 h).value = h.tierOf 2 ∧
      (Query.enclosingObjectEntry 2 h).value = h.enclosingObjectEntry 2 ∧ Graph.outdated.SameAnswers h :=
  ⟨by decide, by decide, Graph.memo_coherence (.inl rfl) _⟩

end Tierwise
