import Tierwise.Proofs.CallChain
import Tierwise.Proofs.Lists

/-! # Statements that anchor a call

The climb that looks for them goes to every call above and level by level, while `outermostCall` goes from one call to
the next. Where a node stands in one slot at most and a slot has one owner at most, each level consists of one node, as
often as parallel edges lead to it, and the two climbs are the same.
-/

namespace Tierwise

namespace Graph

variable {g : Graph} {n m call top up : NodeRef} {path frontier : List NodeRef} {levels : Nat}

/-- A node stands in one actual parameter at most, and an actual parameter belongs to one call at most. Edges may be
parallel. -/
structure SingleSlots (g : Graph) : Prop where
  slot : ∀ n, ∀ a ∈ g.argumentSlots n, ∀ b ∈ g.argumentSlots n, a = b
  owner : ∀ slot, g.holds Node.isActual slot = true → ∀ a ∈ g.callsOf slot, ∀ b ∈ g.callsOf slot, a = b

theorem mem_outerCalls_of_climb? (h : g.climb? n = some up) : up ∈ g.outerCalls n := by
  obtain ⟨slot, hslot, hup⟩ := Option.bind_eq_some_iff.1 h
  exact List.mem_flatMap.2 ⟨slot, List.mem_of_mem_head? hslot, List.mem_of_mem_head? hup⟩

theorem SingleSlots.eq_of_mem_outerCalls (hg : g.SingleSlots) (hm : m ∈ g.outerCalls n) (hup : up ∈ g.outerCalls n) :
    m = up := by
  obtain ⟨a, ha, hm⟩ := List.mem_flatMap.1 hm
  obtain ⟨b, hb, hup⟩ := List.mem_flatMap.1 hup
  rw [hg.slot n a ha b hb] at hm
  exact hg.owner b (List.mem_filter.1 hb).2 m hm up hup

/-- The first slot is the only one, so a step that finds no owner leaves none to be found. -/
theorem SingleSlots.outerCalls_eq_nil (hg : g.SingleSlots) (h : g.climb? n = none) : g.outerCalls n = [] := by
  apply List.flatMap_eq_nil_iff.2
  intro slot hslot
  cases hhead : (g.argumentSlots n).head? with
  | none =>
    rw [List.head?_eq_none_iff.1 hhead] at hslot
    cases hslot
  | some first =>
    rw [hg.slot n slot hslot first (List.mem_of_mem_head? hhead)]
    rwa [climb?, hhead, Option.bind_some, List.head?_eq_none_iff] at h

theorem anchorsAt_eq_nil (h : g.outerCalls n ≠ []) : g.anchorsAt n = [] := by
  simp [anchorsAt, h]

theorem anchorsAt_of_outerCalls_eq_nil (h : g.outerCalls n = []) :
    g.anchorsAt n = if g.statementsAbove n = [] then [n] else g.statementsAbove n := by
  simp [anchorsAt, h]

/-- Levels on which one node stands, however often, follow the climb from that node to its end. -/
theorem SingleSlots.climb_eq (hg : g.SingleSlots) (h : g.Ascent n path top) (htop : g.climb? top = none)
    (hlevels : path.length < levels) (hne : frontier ≠ []) (hall : ∀ m ∈ frontier, m = n) :
    Anchors.climb g levels [] frontier = ⟨(g.anchorsAt top).eraseDups, false⟩ := by
  induction h generalizing levels frontier with
  | @stay n =>
    obtain ⟨levels, rfl⟩ := Nat.exists_eq_add_of_lt hlevels
    have hlast : frontier.flatMap g.outerCalls = [] := by
      apply List.flatMap_eq_nil_iff.2
      intro m hm
      rw [hall m hm]
      exact hg.outerCalls_eq_nil htop
    rw [Anchors.climb_succ hne, hlast, Anchors.climb_nil, List.nil_append, List.eraseDups_flatMap_of_forall_eq hne hall]
  | @climb n up top path hup _ ih =>
    obtain ⟨more, rfl⟩ := Nat.exists_eq_add_of_lt hlevels
    have hmem := mem_outerCalls_of_climb? hup
    have hnone : frontier.flatMap g.anchorsAt = [] := by
      apply List.flatMap_eq_nil_iff.2
      intro m hm
      rw [hall m hm]
      exact anchorsAt_eq_nil (List.ne_nil_of_mem hmem)
    rw [Anchors.climb_succ hne, hnone, List.append_nil]
    apply ih htop
    · rw [List.length_cons]
      omega
    · obtain ⟨m, hm⟩ := List.exists_mem_of_ne_nil frontier hne
      apply List.ne_nil_of_mem
      exact List.mem_flatMap.2 ⟨m, hm, (hall m hm).symm ▸ hmem⟩
    · intro m hm
      obtain ⟨k, hk, hm⟩ := List.mem_flatMap.1 hm
      rw [hall k hk] at hm
      exact hg.eq_of_mem_outerCalls hm hmem

theorem SingleSlots.anchors_eq (hg : g.SingleSlots) (h : g.Ascent n path top) (htop : g.climb? top = none)
    (hlimit : path.length ≤ g.callChainLimit) : g.anchors n = ⟨(g.anchorsAt top).eraseDups, false⟩ := by
  apply hg.climb_eq h htop (Nat.lt_succ_of_le hlimit)
  · exact List.cons_ne_nil n []
  · exact fun m hm => List.mem_singleton.1 hm

theorem warnings_anchors (h : (g.anchors call).limited = false) : (Query.anchors call g).warnings = [] := by
  simp [Query.anchors, h]

/-- Where slots and owners are single and a call has an outermost one, both are anchored by the same nodes: the statements
that control the outermost call, each once and in the order in which the edges were made, try statements left out, or the
outermost call itself if there are none. The climb for them is not cut off. -/
theorem anchors_of_outermostCall (hg : g.SingleSlots) (h : g.outermostCall call = .ok top) :
    let above := ((g.edges.live.filter fun e => e.type == .control && e.target == top).map Edge.source).filter <|
      g.holds fun s => s.isStatement && !s.hasConstruct Construct.isTry
    (Query.anchors call g).value = (Query.anchors top g).value ∧
      (Query.anchors top g).value = (if above = [] then [top] else above.eraseDups) ∧
      (Query.anchors top g).value.Nodup ∧ (Query.anchors call g).warnings = [] := by
  intro above
  have habove : g.statementsAbove top = above := by rw [statementsAbove, inNodes_control_eq]
  obtain ⟨path, hpath, htop⟩ := exists_ascent_of_outermostCall (s := g.settings) h
  have hlevels := climbLevels_le_of_outermostCall (s := g.settings) hpath htop h
  have hcall := hg.anchors_eq hpath htop (Nat.le_trans (Nat.le_add_right _ _) hlevels)
  have hself := hg.anchors_eq (.stay (n := top)) htop (Nat.zero_le _)
  rw [anchorsAt_of_outerCalls_eq_nil (hg.outerCalls_eq_nil htop), habove] at hcall hself
  simp only [Query.value_anchors, hcall, hself]
  refine ⟨trivial, ?_, List.nodup_eraseDups _, warnings_anchors (by rw [hcall])⟩
  by_cases hnone : above = []
  · rw [if_pos hnone, if_pos hnone]
    rfl
  · rw [if_neg hnone, if_neg hnone]

/-- Call 5 stands in an argument of call 3, with two edges for each step. Statements 2 and 0 control call 3, one of them by
two edges, and so does the try statement 1. One level may be climbed. -/
def doubledEdges : Graph :=
  let nodes := [Edit.addStatement none, .addStatement (some ⟨1, .tryStatement, none, none, [], none⟩), .addStatement none,
    .addCallNode none, .addActual .inward none none, .addCallNode none]
  let arcs := [(2, 3), (1, 3), (0, 3), (2, 3), (3, 4), (3, 4), (4, 5), (4, 5)]
  Edit.applyAll empty (.setSettings { Settings.standard with callChainLimit := 1 } :: nodes ++
    arcs.map fun a => .addEdge a.1 a.2 .control none)

theorem anchors_of_outermostCall_doubledEdges :
    doubledEdges.SingleSlots ∧ doubledEdges.outermostCall 5 = .ok 3 ∧
      (Query.anchors 5 doubledEdges).value = (Query.anchors 3 doubledEdges).value ∧
      (Query.anchors 3 doubledEdges).value = [2, 0] ∧ (Query.anchors 5 doubledEdges).warnings = [] := by
  have hslots : ∀ e ∈ doubledEdges.edges.live, e.type = .control →
      doubledEdges.holds Node.isActual e.source = true → e.source = 4 := by decide
  have howners : ∀ e ∈ doubledEdges.edges.live, e.type = .control →
      doubledEdges.holds Node.isActual e.target = true → e.source = 3 := by decide
  have hslot : ∀ n, ∀ a ∈ doubledEdges.argumentSlots n, a = 4 := by
    intro n a ha
    obtain ⟨hin, hactual⟩ := List.mem_filter.1 ha
    obtain ⟨e, he, -, htype, rfl⟩ := mem_inNodes_control.1 hin
    exact hslots e he htype hactual
  have howner : ∀ slot, doubledEdges.holds Node.isActual slot = true → ∀ a ∈ doubledEdges.callsOf slot, a = 3 := by
    intro slot hactual a ha
    obtain ⟨e, he, rfl, htype, rfl⟩ := mem_inNodes_control.1 (List.mem_filter.1 ha).1
    exact howners e he htype hactual
  have hsingle : doubledEdges.SingleSlots := by
    constructor
    · intro n a ha b hb
      rw [hslot n a ha, hslot n b hb]
    · intro slot hactual a ha b hb
      rw [howner slot hactual a ha, howner slot hactual b hb]
  have htop : doubledEdges.outermostCall 5 = .ok 3 := by decide
  obtain ⟨hsame, hlist, -, hwarnings⟩ := anchors_of_outermostCall hsingle htop
  exact ⟨hsingle, htop, hsame, hlist.trans (by decide), hwarnings⟩

end Graph

end Tierwise
