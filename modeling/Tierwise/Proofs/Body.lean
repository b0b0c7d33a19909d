import Tierwise.Entry
import Tierwise.Proofs.Edge.Order
import Tierwise.Proofs.Walk

/-! # The body of a function

Its nodes are those at the ends of paths that leave the entry along control and then go through nodes of a body. A walk
finds them in as many turns as there are edges at most: every turn takes up an edge, a control edge out of the entry or
an edge out of a node that was listed, and no edge is taken up twice.
-/

namespace Tierwise

/-- The kinds of node that make up a body. -/
inductive NodeKind.OfBody : NodeKind → Prop
  | statement : OfBody .statement
  | call (arity : Option Arity) : OfBody (.call arity)
  | objectEntry (state : ObjectState) : OfBody (.objectEntry state)
  | entry (state : EntryState) : OfBody (.entry state)

theorem Node.isBodyNode_iff {n : Node} : n.isBodyNode = true ↔ n.kind.OfBody := by
  unfold isBodyNode isStatement isCall isObjectEntry isEntry
  generalize n.kind = kind
  constructor
  · intro h
    cases kind with
    | statement => exact .statement
    | call arity => exact .call arity
    | objectEntry state => exact .objectEntry state
    | entry state => exact .entry state
    | _ => cases h
  · intro h
    cases h <;> rfl

namespace Graph

variable {g : Graph} {entry u v : NodeRef} {e : Edge} {p : Edge → Bool} {k : Nat}

/-- The edges of a body, but for those that leave the entry: control and member edges, and data edges from a property
statement to a function entry. -/
def BodyStep (g : Graph) (e : Edge) : Prop :=
  e.type = .control ∨ e.type = .member ∨
    e.type = .data ∧ g.holds (fun n => n.isStatement && n.hasConstruct Construct.isProperty) e.source = true ∧
      g.holds Node.isEntry e.target = true

/-- A statement, a call, an object entry or a function entry of the graph. -/
def BodyNode (g : Graph) (v : NodeRef) : Prop := ∃ node, g.node? v = some node ∧ node.kind.OfBody

/-- A path from `entry` whose first edge is a control edge, whose later edges are edges of a body, and which leads through
nodes of a body and not through `entry`. Its end may be any node. -/
inductive BodyPath (g : Graph) (entry : NodeRef) : NodeRef → Prop
  | first {e : Edge} : e ∈ g.edges.live → e.type = .control → e.source = entry → BodyPath g entry e.target
  | next {e : Edge} : BodyPath g entry e.source → e.source ≠ entry → g.BodyNode e.source →
      e ∈ g.edges.live → g.BodyStep e → BodyPath g entry e.target

theorem holds_isBodyNode_iff : g.holds Node.isBodyNode v = true ↔ g.BodyNode v := by
  simp only [holds_iff, Node.isBodyNode_iff, BodyNode]

/-! ### Edges -/

/-- The edges of a body that pass a test, in the order in which they are tried. -/
def bodyEdges (g : Graph) (p : Edge → Bool) : List Edge :=
  let live := g.edges.live.filter p
  live.filter (·.type == .control) ++ live.filter (·.type == .member) ++ live.filter g.leadsToValue

theorem leadsToValue_iff : g.leadsToValue e = true ↔ e.type = .data ∧
    g.holds (fun n => n.isStatement && n.hasConstruct Construct.isProperty) e.source = true ∧
      g.holds Node.isEntry e.target = true := by
  simp [leadsToValue, and_assoc]

theorem mem_bodyEdges : e ∈ g.bodyEdges p ↔ e ∈ g.edges.live ∧ p e = true ∧ g.BodyStep e := by
  simp only [bodyEdges, BodyStep, List.mem_append, List.mem_filter, beq_iff_eq, leadsToValue_iff]
  grind

theorem filter_bodyEdges (g : Graph) (p q : Edge → Bool) :
    (g.bodyEdges p).filter q = g.bodyEdges fun e => q e && p e := by
  have hswap : ∀ kind : Edge → Bool, ((g.edges.live.filter p).filter kind).filter q =
      (g.edges.live.filter fun e => q e && p e).filter kind := by
    intro kind
    simp only [List.filter_filter, Bool.and_left_comm]
  simp only [bodyEdges, List.filter_append, hswap]

/-- No edge is listed twice, since the three kinds of edges differ in type. -/
theorem nodup_bodyEdges (g : Graph) (p : Edge → Bool) : (g.bodyEdges p).Nodup := by
  have hlive := g.edges.nodup_live.filter p
  simp only [bodyEdges, List.nodup_append]
  refine ⟨⟨hlive.filter _, hlive.filter _, ?_⟩, hlive.filter _, ?_⟩
  · rintro d hd _ he rfl
    simp only [List.mem_filter, beq_iff_eq] at hd he
    cases hd.2.symm.trans he.2
  · rintro d hd _ he rfl
    simp only [List.mem_append, List.mem_filter, beq_iff_eq, leadsToValue_iff] at hd he
    grind

/-- The arcs of the edges of a body that pass a test. -/
def arcsWhere (g : Graph) (p : Edge → Bool) : Arcs := (g.bodyEdges p).map fun e => (e.source, e.target)

theorem bodyArcs_eq_arcsWhere (g : Graph) : g.bodyArcs = g.arcsWhere fun e => g.holds Node.isBodyNode e.target := rfl

theorem next_arcsWhere (g : Graph) (p : Edge → Bool) (v : NodeRef) :
    (g.arcsWhere p).next v = (g.bodyEdges fun e => e.source == v && p e).map Edge.target := by
  rw [Arcs.next, arcsWhere, List.filter_map, List.map_map, ← filter_bodyEdges]
  rfl

theorem mem_bodyArcs : (u, v) ∈ g.bodyArcs ↔
    ∃ e ∈ g.edges.live, g.BodyStep e ∧ e.source = u ∧ e.target = v ∧ g.BodyNode v := by
  simp only [bodyArcs_eq_arcsWhere, arcsWhere, List.mem_map, mem_bodyEdges, Prod.mk.injEq, holds_isBodyNode_iff]
  grind

/-! ### Paths -/

/-- The nodes that wait when the walk begins. -/
def bodyStart (g : Graph) (entry : NodeRef) : List NodeRef :=
  (g.outNodes entry (some .control)).filter (g.holds Node.isBodyNode)

theorem mem_bodyStart : v ∈ g.bodyStart entry ↔
    (∃ e ∈ g.edges.live, e.type = .control ∧ e.source = entry ∧ e.target = v) ∧ g.BodyNode v := by
  simp only [bodyStart, List.mem_filter, outNodes, mem_neighbours_some, Edge.near, Edge.far, holds_isBodyNode_iff]
  grind

theorem mem_body : v ∈ g.body entry ↔ ∃ u ∈ g.bodyStart entry, ∃ k, g.bodyArcs.Path [entry] k u v := Arcs.mem_order

/-- Arcs of a body go on with a path. -/
theorem BodyPath.extend (h : g.bodyArcs.Path [entry] k u v) (hpath : g.BodyPath entry u)
    (hu : g.BodyNode u) : g.BodyPath entry v ∧ g.BodyNode v := by
  induction h with
  | stay _ => exact ⟨hpath, hu⟩
  | step hoff ha _ ih =>
    obtain ⟨e, hlive, hstep, rfl, rfl, htarget⟩ := mem_bodyArcs.1 ha
    have hne : e.source ≠ entry := by simpa using hoff
    exact ih (.next hpath hne hu hlive hstep) htarget

/-- The end of a path, if it is a node of a body, is at the end of arcs of a body too. -/
theorem BodyPath.exists_arcs (h : g.BodyPath entry v) (hne : v ≠ entry) (hv : g.BodyNode v) :
    ∃ u ∈ g.bodyStart entry, ∃ k, g.bodyArcs.Path [entry] k u v := by
  induction h with
  | @first e hlive htype hsource =>
    refine ⟨e.target, mem_bodyStart.2 ⟨⟨e, hlive, htype, hsource, rfl⟩, hv⟩, 0, .stay ?_⟩
    simpa using hne
  | @next e _ hsource hbody hlive hstep ih =>
    obtain ⟨u, hu, k, hpath⟩ := ih hsource hbody
    have ha : (e.source, e.target) ∈ g.bodyArcs := mem_bodyArcs.2 ⟨e, hlive, hstep, rfl, rfl, hv⟩
    refine ⟨u, hu, k + 1, hpath.trans (.step ?_ ha (.stay ?_))⟩
    · simpa using hsource
    · simpa using hne

theorem mem_body_iff : v ∈ g.body entry ↔ v ≠ entry ∧ g.BodyNode v ∧ g.BodyPath entry v := by
  rw [mem_body]
  constructor
  · rintro ⟨u, hu, k, hpath⟩
    obtain ⟨⟨e, hlive, htype, hsource, rfl⟩, hbody⟩ := mem_bodyStart.1 hu
    obtain ⟨hv, hnode⟩ := BodyPath.extend hpath (.first hlive htype hsource) hbody
    exact ⟨by simpa using hpath.end_notMem, hnode, hv⟩
  · rintro ⟨hne, hv, hpath⟩
    exact hpath.exists_arcs hne hv

/-! ### Nodes of other kinds -/

/-- The steps of a walk that looks at the kind of a node only when its turn comes: any node may follow, and only nodes of
a body are expanded. -/
def lateArcs (g : Graph) : Arcs := g.arcsWhere fun e => g.holds Node.isBodyNode e.source

theorem next_lateArcs_eq_nil (hv : g.holds Node.isBodyNode v = false) : g.lateArcs.next v = [] := by
  apply List.eq_nil_iff_forall_not_mem.2
  intro w hw
  obtain ⟨e, he, harc⟩ := List.mem_map.1 (Arcs.mem_next.1 hw)
  have hsource : e.source = v := congrArg Prod.fst harc
  have hbody := (mem_bodyEdges.1 he).2.1
  rw [hsource, hv] at hbody
  cases hbody

theorem next_bodyArcs (hv : g.holds Node.isBodyNode v = true) :
    g.bodyArcs.next v = (g.lateArcs.next v).filter (g.holds Node.isBodyNode) := by
  rw [bodyArcs_eq_arcsWhere, lateArcs, next_arcsWhere, next_arcsWhere, List.filter_map, filter_bodyEdges]
  apply congrArg (fun p => (g.bodyEdges p).map Edge.target)
  funext e
  by_cases hsource : e.source = v
  · simp [hsource, hv]
  · simp [beq_false_of_ne hsource]

/-- A node of another kind is marked when its turn comes, but this keeps no node out of a body. -/
theorem filter_order_lateArcs (g : Graph) (entry : NodeRef) :
    (g.lateArcs.order [entry] (g.outNodes entry (some .control))).filter (g.holds Node.isBodyNode) = g.body entry :=
  Arcs.filter_order (fun _ => next_bodyArcs) (fun _ => next_lateArcs_eq_nil) fun _ _ => Iff.rfl

/-! ### Turns -/

theorem length_unseen_arcsWhere (g : Graph) (p : Edge → Bool) (entry : NodeRef) :
    ((g.arcsWhere p).unseen [entry]).length = ((g.bodyEdges p).filter fun e => e.source != entry).length := by
  rw [arcsWhere, Arcs.unseen, List.filter_map, List.length_map]
  apply congrArg List.length
  apply List.filter_congr
  intro e _
  rw [Bool.eq_iff_iff]
  simp

/-- A walk begins with one node for each control edge out of the entry, and has the edges before it that leave other
nodes. -/
theorem length_outNodes_add_le (g : Graph) (p : Edge → Bool) (entry : NodeRef) :
    (g.outNodes entry (some .control)).length + ((g.arcsWhere p).unseen [entry]).length ≤ g.edgeCount := by
  have hnodup : (g.edgesAt .outgoing entry (some .control) ++
      (g.bodyEdges p).filter fun e => e.source != entry).Nodup := by
    apply List.nodup_append.2
    refine ⟨g.nodup_edgesAt .outgoing entry _, (g.nodup_bodyEdges p).filter _, ?_⟩
    rintro d hd _ he rfl
    have hsource : d.source = entry := (mem_edgesAt_some.1 hd).2.1
    simp [hsource] at he
  have hlive : g.edgesAt .outgoing entry (some .control) ++ ((g.bodyEdges p).filter fun e => e.source != entry) ⊆
      g.edges.live := by
    intro d hd
    rcases List.mem_append.1 hd with hd | hd
    · exact (mem_edgesAt_some.1 hd).1
    · exact (mem_bodyEdges.1 (List.mem_filter.1 hd).1).1
  have hcount := length_le_edgeCount hnodup hlive
  rw [List.length_append] at hcount
  rw [length_unseen_arcsWhere, outNodes, neighbours, List.length_map]
  exact hcount

theorem length_bodyStart_add_le (g : Graph) (entry : NodeRef) :
    (g.bodyStart entry).length + (g.bodyArcs.unseen [entry]).length ≤ g.edgeCount := by
  have hstart : (g.bodyStart entry).length ≤ (g.outNodes entry (some .control)).length := List.length_filter_le _ _
  have hcount := g.length_outNodes_add_le (fun e => g.holds Node.isBodyNode e.target) entry
  rw [← bodyArcs_eq_arcsWhere] at hcount
  omega

/-- A body lists every node once, and lists the statements, calls, object entries and function entries other than `entry`
to which there is a path. The walk that collects them has nothing left to do after as many turns as there are edges,
whatever cycles they form. So has the walk that queues nodes of other kinds too and marks them when their turn comes, and
it finds the same body. -/
theorem body_exact (g : Graph) (entry : NodeRef) :
    (g.body entry).Nodup ∧
    (∀ v, v ∈ g.body entry ↔ v ≠ entry ∧ g.BodyNode v ∧ g.BodyPath entry v) ∧
    g.bodyArcs.turn^[g.edgeCount] ([entry], g.bodyStart entry) = ((g.body entry).reverse ++ [entry], []) ∧
    ∃ left : List NodeRef,
      g.lateArcs.turn^[g.edgeCount] ([entry], g.outNodes entry (some .control)) = (left.reverse ++ [entry], []) ∧
      left.filter (g.holds Node.isBodyNode) = g.body entry := by
  refine ⟨g.bodyArcs.nodup_order _ _, fun v => mem_body_iff, Arcs.iterate_turn (g.length_bodyStart_add_le entry), ?_⟩
  exact ⟨_, Arcs.iterate_turn (g.length_outNodes_add_le _ entry), g.filter_order_lateArcs entry⟩

end Graph

end Tierwise
