import Tierwise.Proofs.Construction

/-! # Classifying the whole program at once

Every node ends up remembering what a search finds now, whatever it remembered before, so it makes no difference whether
the nodes are classified together or one by one as they are asked for, and doing it twice is the same as doing it once.
-/

namespace Tierwise

theorem Node.eq_of_modifyMemo_eq {a b : Node} (he : a.modifyMemo (fun _ => {}) = b.modifyMemo fun _ => {})
    (hm : a.memo = b.memo) : a = b :=
  calc a = (a.modifyMemo fun _ => {}).modifyMemo fun _ => a.memo := rfl
    _ = (b.modifyMemo fun _ => {}).modifyMemo fun _ => b.memo := by rw [he, hm]
    _ = b := rfl

namespace Graph

variable {g h : Graph} {n : NodeRef}

/-- What a search finds now, as it is remembered. -/
def findings (g : Graph) (n : NodeRef) : Memo := Memo.ofFindings (g.classify n) (g.tierOf n)

theorem findings_congr (he : h.forgetAll = g.forgetAll) : h.findings = g.findings := by
  funext n
  have hsame := sameAnswers_of_forgetAll_eq he
  rw [findings, findings, hsame.classify, hsame.tierOf]

theorem tag_findings_iff {t : Tag} : (g.findings n).tag = some t ↔ g.classify n = .declared t := by
  unfold findings Memo.ofFindings
  cases g.classify n <;> simp

theorem coherent_of_memo_eq_findings (hm : h.memo n = g.findings n) (he : h.forgetAll = g.forgetAll) :
    h.Coherent n := by
  rw [Coherent, hm, ← findings_congr he]
  exact Query.sound_ofFindings h n

/-- Graphs that may differ in memos only, and do not, are the same. -/
theorem eq_of_forgetAll_eq (he : h.forgetAll = g.forgetAll) (hm : ∀ n, h.memo n = g.memo n) : h = g := by
  have hnodes : h.nodes = g.nodes := by
    apply Array.ext_getElem?
    intro n
    change h.node? n = g.node? n
    have hbare : (h.node? n).map (Node.modifyMemo fun _ => {}) = (g.node? n).map (Node.modifyMemo fun _ => {}) := by
      rw [← node?_forgetAll, he, node?_forgetAll]
    have hmemo := hm n
    unfold memo at hmemo
    cases ha : h.node? n with
    | none =>
      rw [ha, Option.map_none] at hbare
      exact (Option.map_eq_none_iff.1 hbare.symm).symm
    | some a =>
      cases hb : g.node? n with
      | none => simp [ha, hb] at hbare
      | some b =>
        simp only [ha, hb, Option.map_some, Option.some.injEq, Option.getD_some] at hbare hmemo
        rw [Node.eq_of_modifyMemo_eq hbare hmemo]
  calc h = { h.forgetAll with nodes := h.nodes } := rfl
    _ = { g.forgetAll with nodes := g.nodes } := by rw [he, hnodes]
    _ = g := rfl

theorem mem_nodeRefs : n ∈ g.nodeRefs ↔ n < g.nodes.size := by
  rw [nodeRefs, (List.mergeSort_perm _ _).mem_iff, List.mem_range]

@[simp] theorem isSome_node?_forgetAll (g : Graph) (n : NodeRef) : (g.forgetAll.node? n).isSome = (g.node? n).isSome := by
  simp [node?_forgetAll]

@[simp] theorem nodeRefs_forgetAll (g : Graph) : g.forgetAll.nodeRefs = g.nodeRefs := by
  have hsize : g.forgetAll.nodes.size = g.nodes.size := by simp [forgetAll]
  have hserial : g.forgetAll.serialOf = g.serialOf := by
    funext n
    simp only [serialOf, node?_forgetAll, Option.map_map]
    rfl
  rw [nodeRefs, nodeRefs, hsize, hserial]

end Graph

namespace Query

open Tierwise.Graph (findings_congr)

theorem value_reclassify (n : NodeRef) (g : Graph) : (reclassify n g).value = (n, g.classify n) := by
  simp [reclassify, value_classify]

theorem forgetAll_reclassify (n : NodeRef) (g : Graph) : (reclassify n g).graph.forgetAll = g.forgetAll := by
  rw [graph_reclassify, Graph.forgetAll_modifyMemo]

theorem forgetAll_each_reclassify (ns : List NodeRef) (g : Graph) :
    (each reclassify ns g).graph.forgetAll = g.forgetAll := (respected_refreshed.each faithful_reclassify ns g).1

/-- Searches find the same in the middle of the work as before it, since they do not look at what was written. -/
theorem value_each_reclassify (ns : List NodeRef) (g : Graph) :
    (each reclassify ns g).value = ns.map fun n => (n, g.classify n) := by
  induction ns generalizing g with
  | nil => rfl
  | cons n rest ih =>
    have hsame := Graph.sameAnswers_of_forgetAll_eq (forgetAll_reclassify n g)
    simp [each, ih, value_reclassify, hsame.classify]

theorem memo_reclassify (n : NodeRef) (g : Graph) (m : NodeRef) :
    (reclassify n g).graph.memo m = if n = m ∧ (g.node? m).isSome then g.findings m else g.memo m := by
  rw [graph_reclassify, Graph.memo_modifyMemo]
  by_cases hnm : n = m
  · subst hnm
    rfl
  · simp [hnm]

theorem memo_each_reclassify (ns : List NodeRef) (g : Graph) (m : NodeRef) :
    (each reclassify ns g).graph.memo m = if m ∈ ns ∧ (g.node? m).isSome then g.findings m else g.memo m := by
  induction ns generalizing g with
  | nil => simp [each]
  | cons n rest ih =>
    have hbare := forgetAll_reclassify n g
    have hnode : ((reclassify n g).graph.node? m).isSome = (g.node? m).isSome := by
      rw [← Graph.isSome_node?_forgetAll, hbare, Graph.isSome_node?_forgetAll]
    change (each reclassify rest (reclassify n g).graph).graph.memo m = _
    rw [ih, findings_congr hbare, hnode, memo_reclassify]
    by_cases hnm : n = m
    · subst hnm
      by_cases hsome : (g.node? n).isSome = true <;> simp [hsome]
    · simp [hnm, Ne.symm hnm]

theorem graph_classifyProgram (g : Graph) :
    (classifyProgram g).graph = (each reclassify g.nodeRefs g).graph := rfl

theorem value_classifyProgram (g : Graph) :
    (classifyProgram g).value = Report.ofResolutions g (g.nodeRefs.map fun n => (n, g.classify n)) := by
  have hid : (each reclassify g.nodeRefs g).graph.idOf = g.idOf := by
    funext n
    rw [← Graph.idOf_forgetAll, forgetAll_each_reclassify, Graph.idOf_forgetAll]
  change Report.ofResolutions (each reclassify g.nodeRefs g).graph (each reclassify g.nodeRefs g).value = _
  rw [value_each_reclassify]
  simp only [Report.ofResolutions, hid]

theorem forgetAll_classifyProgram (g : Graph) : (classifyProgram g).graph.forgetAll = g.forgetAll :=
  forgetAll_each_reclassify g.nodeRefs g

theorem memo_classifyProgram (g : Graph) (n : NodeRef) :
    (classifyProgram g).graph.memo n = if n < g.nodes.size then g.findings n else {} := by
  rw [graph_classifyProgram, memo_each_reclassify]
  by_cases hn : n < g.nodes.size
  · have hsome : (g.node? n).isSome = true := Option.isSome_iff_exists.2 (Graph.exists_node?_iff.2 hn)
    simp [hn, Graph.mem_nodeRefs, hsome]
  · have hnone : g.node? n = none := by simpa [Graph.node?] using hn
    simp [hn, Graph.memo, hnone]

theorem coherent_classifyProgram (g : Graph) (n : NodeRef) : (classifyProgram g).graph.Coherent n := by
  have hmemo := memo_classifyProgram g n
  by_cases hn : n < g.nodes.size
  · rw [if_pos hn] at hmemo
    exact Graph.coherent_of_memo_eq_findings hmemo (forgetAll_classifyProgram g)
  · rw [if_neg hn] at hmemo
    exact Graph.coherent_of_memo_eq hmemo

/-- What was remembered before has no influence. -/
theorem classifyProgram_congr {g h : Graph} (he : h.forgetAll = g.forgetAll) :
    (classifyProgram h).value = (classifyProgram g).value ∧ (classifyProgram h).graph = (classifyProgram g).graph := by
  have hrefs : h.nodeRefs = g.nodeRefs := by
    rw [← Graph.nodeRefs_forgetAll, he, Graph.nodeRefs_forgetAll]
  have hid : h.idOf = g.idOf := by
    funext n
    rw [← Graph.idOf_forgetAll, he, Graph.idOf_forgetAll]
  have hclassify : h.classify = g.classify := by
    funext n
    exact (Graph.sameAnswers_of_forgetAll_eq he).classify n
  constructor
  · simp only [value_classifyProgram, hrefs, hclassify, Report.ofResolutions, hid]
  · apply Graph.eq_of_forgetAll_eq
    · rw [forgetAll_classifyProgram, forgetAll_classifyProgram, he]
    · intro n
      rw [memo_classifyProgram, memo_classifyProgram, findings_congr he, (Graph.reworked_of_forgetAll_eq he).size]

/-- Where memos are right, the queries with memory agree. -/
theorem tag_and_tier_congr {g h : Graph} {n : NodeRef} (he : h.forgetAll = g.forgetAll) (hh : h.Coherent n)
    (hg : g.Coherent n) :
    (tag n false h).value = (tag n false g).value ∧ (tier n h).value = (tier n g).value := by
  have hsame := Graph.sameAnswers_of_forgetAll_eq he
  constructor
  · change (resolve n false h).value.tag? = (resolve n false g).value.tag?
    rw [value_resolve hh, value_resolve hg, hsame.classify]
  · rw [value_tier hh, value_tier hg, hsame.tierOf]

end Query

/-- Every node is counted once. -/
theorem Report.total_ofResolutions (g : Graph) (found : List (NodeRef × Resolution)) :
    let report := Report.ofResolutions g found
    report.declared + report.undetermined + report.unset = found.length := by
  simp only [ofResolutions]
  induction found with
  | nil => rfl
  | cons p rest ih =>
    obtain ⟨n, r⟩ := p
    rw [List.countP_cons, List.countP_cons, List.countP_cons, List.length_cons, ← ih]
    cases r <;> simp [Resolution.isDeclared] <;> omega

/-- Classifying the whole program changes nothing but memos. It leaves on every node what a search finds, so that tags
and tiers read the same as on a graph where everything was forgotten, whatever is asked before or later. The report
counts every node once and names the undetermined ones in order of creation. Neither the report nor the graph depends
on what was remembered before, and classifying once more changes nothing. -/
theorem Graph.classifyProgram_eq_lazy {g : Graph} (hg : g.Attained) :
    let report := (Query.classifyProgram g).value
    let after := (Query.classifyProgram g).graph
    after.forgetAll = g.forgetAll ∧
    (∀ n < g.nodes.size, (after.memo n).tier = some (after.tierOf n) ∧
      (∀ t, (after.memo n).tag = some t ↔ after.classify n = .declared t) ∧ (after.memo n).objectEntry = none) ∧
    (∀ n later lazily,
      (Query.tag n false (MemoQuery.afterAll after later)).value =
        (Query.tag n false (MemoQuery.afterAll g.forgetAll lazily)).value ∧
      (Query.tier n (MemoQuery.afterAll after later)).value =
        (Query.tier n (MemoQuery.afterAll g.forgetAll lazily)).value) ∧
    report.declared + report.undetermined + report.unset = g.nodeCount ∧
    report.undeterminedNodes =
      ((List.range g.nodes.size).filter fun n => g.classify n = .undetermined).map g.idOf ∧
    (∀ h : Graph, h.forgetAll = g.forgetAll →
      (Query.classifyProgram h).value = report ∧ (Query.classifyProgram h).graph = after) ∧
    (Query.classifyProgram after).value = report ∧ (Query.classifyProgram after).graph = after := by
  intro report after
  have hbare : after.forgetAll = g.forgetAll := Query.forgetAll_classifyProgram g
  have hfindings : after.findings = g.findings := findings_congr hbare
  have hreport : report = Report.ofResolutions g ((List.range g.nodes.size).map fun n => (n, g.classify n)) := by
    rw [← hg.built.nodeRefs_eq]
    exact Query.value_classifyProgram g
  refine ⟨hbare, ?_, ?_, ?_, ?_, fun h he => Query.classifyProgram_congr he, Query.classifyProgram_congr hbare⟩
  · intro n hn
    have hmemo : after.memo n = after.findings n := by
      rw [hfindings, Query.memo_classifyProgram, if_pos hn]
    rw [hmemo]
    exact ⟨rfl, fun t => tag_findings_iff, rfl⟩
  · intro n later lazily
    have hlater := MemoQuery.refreshed_afterAll after later
    have hlazily := MemoQuery.refreshed_afterAll g.forgetAll lazily
    apply Query.tag_and_tier_congr
    · rw [hlater.1, hbare, hlazily.1, forgetAll_forgetAll]
    · exact hlater.2 n (Query.coherent_classifyProgram g n)
    · exact g.coherent_afterAll_forgetAll lazily n
  · rw [hreport, Report.total_ofResolutions, List.length_map, List.length_range, nodeCount]
  · rw [hreport]
    simp only [Report.ofResolutions, List.filter_map, List.map_map]
    rfl

/-- A statement remembers the server root that it was cut off from, and another hangs below the root of the program. -/
def Graph.cutOff : Graph :=
  Edit.applyAll empty [.addTierRoot .server, .addStatement none, .markRoot 1, .addStatement none, .addStatement none,
    .addEdge 0 2 .control none, .addEdge 1 3 .control none, .ask (.tag 2 false), .ask (.tier 2), .removeOut 0 2 none]

theorem Graph.classifyProgram_eq_lazy_cutOff :
    let after := (Query.classifyProgram cutOff).graph
    cutOff.Attained ∧ (cutOff.memo 2).tag = some (.tier .server) ∧ cutOff.classify 2 = .unset ∧
      (Query.classifyProgram cutOff).value.undeterminedNodes = ["s4"] ∧
      ((after.memo 3).tag = some Tag.shared ↔ after.classify 3 = .declared Tag.shared) ∧
      (Query.tag 2 false after).value = (Query.tag 2 false (MemoQuery.afterAll cutOff.forgetAll [.tier 3])).value ∧
      (Query.classifyProgram after).graph = after := by
  have hattained : cutOff.Attained := Attained.empty.applyAll (by decide)
  obtain ⟨-, hmemo, hlazy, -, hnodes, -, hagain⟩ := classifyProgram_eq_lazy hattained
  exact ⟨hattained, by decide, by decide, hnodes.trans (by decide), (hmemo 3 (by decide)).2.1 _,
    (hlazy 2 [] [.tier 3]).1, hagain.2⟩

end Tierwise
