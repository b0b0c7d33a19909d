import Tierwise.Proofs.Edit

/-! # Creation numbers through an operation

An operation makes a node, or it uses up a creation number in vain, or it reworks nodes without touching their creation
numbers and ids.
-/

namespace Tierwise

/-- What stays of a node for good. -/
structure Node.Same (a b : Node) : Prop where
  serial : b.serial = a.serial
  id : b.id = a.id
  isExit : b.isExit = a.isExit

namespace Node

theorem Same.refl (a : Node) : a.Same a := ⟨rfl, rfl, rfl⟩

theorem Same.trans {a b c : Node} (hab : a.Same b) (hbc : b.Same c) : a.Same c :=
  ⟨hbc.serial.trans hab.serial, hbc.id.trans hab.id, hbc.isExit.trans hab.isExit⟩

theorem same_of_kind_eq {a b : Node} (hserial : b.serial = a.serial) (hkind : b.kind = a.kind) : a.Same b := by
  constructor
  · exact hserial
  · rw [id, id, hserial, hkind]
  · rw [isExit, isExit, hkind]

theorem same_modifyEntry (f : EntryState → EntryState) (a : Node) : a.Same (a.modifyEntry f) := by
  obtain ⟨serial, kind⟩ := a
  cases kind <;> exact ⟨rfl, rfl, rfl⟩

theorem same_modifyObject (f : ObjectState → ObjectState) (a : Node) : a.Same (a.modifyObject f) := by
  obtain ⟨serial, kind⟩ := a
  cases kind <;> exact ⟨rfl, rfl, rfl⟩

end Node

namespace Graph

/-- The exits that a node registers are exits of the graph, and its members are nodes of the graph. -/
structure Supports (g : Graph) (a : Node) : Prop where
  exits : ∀ x ∈ a.exceptionExits, g.holds Node.isExit x = true
  members : ∀ m ∈ a.members, m.2 < g.nodes.size

variable {g h k : Graph} {a b : Node} {n : NodeRef}

theorem Supports.mono (hsize : g.nodes.size ≤ h.nodes.size)
    (hexit : ∀ x, g.holds Node.isExit x = true → h.holds Node.isExit x = true) (ha : g.Supports a) : h.Supports a := by
  constructor
  · intro x hx
    exact hexit x (ha.exits x hx)
  · intro m hm
    exact Nat.lt_of_lt_of_le (ha.members m hm) hsize

theorem supports_of_kind_eq (hkind : b.kind = a.kind) (ha : g.Supports a) : g.Supports b := by
  have hexits : b.exceptionExits = a.exceptionExits := by
    simp [Node.exceptionExits, Node.entryState?, hkind]
  have hmembers : b.members = a.members := by
    simp [Node.members, Node.objectState?, hkind]
  constructor
  · rw [hexits]
    exact ha.exits
  · rw [hmembers]
    exact ha.members

theorem Supports.modifyEntry {f : EntryState → EntryState}
    (hf : ∀ s, ∀ x ∈ (f s).exceptionExits, x ∈ s.exceptionExits ∨ g.holds Node.isExit x = true) (ha : g.Supports a) :
    g.Supports (a.modifyEntry f) := by
  obtain ⟨serial, kind⟩ := a
  cases kind with
  | entry s | objectEntry s =>
    constructor
    · intro x hx
      exact (hf _ x hx).elim (ha.exits x) fun h => h
    · exact ha.members
  | call | statement | formal | actual | exit | slice => exact ha

theorem Supports.modifyObject {f : ObjectState → ObjectState} (hentry : ∀ s, (f s).entry = s.entry)
    (hf : ∀ s, ∀ m ∈ (f s).members, m ∈ s.members ∨ m.2 < g.nodes.size) (ha : g.Supports a) :
    g.Supports (a.modifyObject f) := by
  obtain ⟨serial, kind⟩ := a
  cases kind with
  | objectEntry s =>
    constructor
    · intro x hx
      apply ha.exits x
      simpa [Node.exceptionExits, Node.modifyObject, Node.entryState?, hentry] using hx
    · intro m hm
      exact (hf s m hm).elim (ha.members m) fun h => h
  | entry | call | statement | formal | actual | exit | slice => exact ha

/-- The nodes are the same ones, with the same creation numbers and ids, whatever else they keep. -/
structure Reworked (g h : Graph) : Prop where
  ids : h.ids = g.ids
  serial : h.serial = g.serial
  size : h.nodes.size = g.nodes.size
  node : ∀ n a, g.node? n = some a → ∃ b, h.node? n = some b ∧ a.Same b ∧ (g.Supports a → h.Supports b)

theorem exists_node?_iff : (∃ a, g.node? n = some a) ↔ n < g.nodes.size := by
  rw [node?, ← Option.isSome_iff_exists]
  simp

theorem Reworked.trans (hgh : g.Reworked h) (hhk : h.Reworked k) : g.Reworked k where
  ids := hhk.ids.trans hgh.ids
  serial := hhk.serial.trans hgh.serial
  size := hhk.size.trans hgh.size
  node := by
    intro n a ha
    obtain ⟨b, hb, hab, hsab⟩ := hgh.node n a ha
    obtain ⟨c, hc, hbc, hsbc⟩ := hhk.node n b hb
    exact ⟨c, hc, hab.trans hbc, fun hs => hsbc (hsab hs)⟩

/-- Every node was there before. -/
theorem Reworked.exists_before (hgh : g.Reworked h) (hb : h.node? n = some b) :
    ∃ a, g.node? n = some a ∧ a.Same b ∧ (g.Supports a → h.Supports b) := by
  have hn : n < g.nodes.size := by
    rw [← hgh.size]
    exact exists_node?_iff.1 ⟨b, hb⟩
  obtain ⟨a, ha⟩ := exists_node?_iff.2 hn
  obtain ⟨c, hc, hsame⟩ := hgh.node n a ha
  rw [hb] at hc
  cases hc
  exact ⟨a, ha, hsame⟩

theorem reworked_of_nodes_eq (hnodes : h.nodes = g.nodes) (hids : h.ids = g.ids) (hserial : h.serial = g.serial) :
    g.Reworked h where
  ids := hids
  serial := hserial
  size := by rw [hnodes]
  node := by
    intro n a ha
    have hnode : h.node? = g.node? := by
      funext m
      rw [node?, node?, hnodes]
    have hsize : g.nodes.size = h.nodes.size := by rw [hnodes]
    refine ⟨a, by rw [hnode, ha], .refl a, fun hs => hs.mono (Nat.le_of_eq hsize) ?_⟩
    intro x hx
    rwa [holds, hnode]

theorem Reworked.refl (g : Graph) : g.Reworked g := reworked_of_nodes_eq rfl rfl rfl

/-- A node is altered in place. -/
theorem reworked_modifyNode {f : Node → Node} (hsame : ∀ a, g.node? n = some a → a.Same (f a))
    (hf : ∀ a, g.node? n = some a → g.Supports a → g.Supports (f a)) : g.Reworked (g.modifyNode n f) := by
  have hsize : g.nodes.size = (g.modifyNode n f).nodes.size := by simp [modifyNode]
  have hexit : ∀ x, g.holds Node.isExit x = true → (g.modifyNode n f).holds Node.isExit x = true := by
    intro x hx
    obtain ⟨a, ha, hax⟩ := holds_iff.1 hx
    rw [holds, node?_modifyNode]
    by_cases hnx : n = x
    · subst hnx
      simp [ha, (hsame a ha).isExit, hax]
    · simp [hnx, ha, hax]
  refine ⟨rfl, rfl, hsize.symm, fun m a ha => ?_⟩
  rw [node?_modifyNode]
  by_cases hnm : n = m
  · subst hnm
    exact ⟨f a, by simp [ha], hsame a ha, fun hs => (hf a ha hs).mono (Nat.le_of_eq hsize) hexit⟩
  · exact ⟨a, by simp [hnm, ha], .refl a, fun hs => hs.mono (Nat.le_of_eq hsize) hexit⟩

theorem reworked_of_forgetAll_eq (he : h.forgetAll = g.forgetAll) : g.Reworked h := by
  have hsize : g.nodes.size = h.nodes.size := by
    simpa [forgetAll] using congrArg (fun k : Graph => k.nodes.size) he.symm
  have hexit : ∀ x, g.holds Node.isExit x = true → h.holds Node.isExit x = true := by
    intro x hx
    rwa [← holds_forgetAll (fun _ _ => rfl), he, holds_forgetAll fun _ _ => rfl]
  constructor
  · change h.forgetAll.ids = g.forgetAll.ids
    rw [he]
  · change h.forgetAll.serial = g.forgetAll.serial
    rw [he]
  · exact hsize.symm
  · intro n a ha
    have hnode : (h.node? n).map (Node.modifyMemo fun _ => {}) = some (a.modifyMemo fun _ => {}) := by
      rw [← node?_forgetAll, he, node?_forgetAll, ha, Option.map_some]
    obtain ⟨b, hb, hab⟩ := Option.map_eq_some_iff.1 hnode
    simp only [Node.modifyMemo, Node.mk.injEq] at hab
    obtain ⟨hserial, hkind, -⟩ := hab
    refine ⟨b, hb, Node.same_of_kind_eq hserial hkind, fun hs => ?_⟩
    exact supports_of_kind_eq hkind (hs.mono (Nat.le_of_eq hsize) hexit)

/-! ### The three kinds of change -/

/-- What an operation can do to the nodes, the ids and the creation number. -/
inductive Change (g : Graph) : Graph → Prop
  | rework {h : Graph} : g.Reworked h → Change g h
  /-- A creation number is used up, and no node is made. -/
  | skip : Change g { g with serial := g.serial + 1 }
  /-- A node is made. Only for a slice root was the id looked up before. -/
  | add {kind : NodeKind} {construct : Option Construct} : g.Supports { serial := g.serial + 1, kind, construct } →
      (∀ mark, kind = .slice mark → g.find? ("C" ++ mark.tag.text) = none) → Change g (g.addNode kind construct).2

theorem change_addNode {kind : NodeKind} {construct : Option Construct} (hkind : ∀ mark, kind ≠ .slice mark)
    (hs : g.Supports { serial := g.serial + 1, kind, construct }) : g.Change (g.addNode kind construct).2 :=
  .add hs fun mark he => absurd he (hkind mark)

theorem change_addSlice (g : Graph) (mark : SliceMark) : g.Change (g.addSlice mark).2 := by
  unfold addSlice
  cases hfind : g.find? ("C" ++ mark.tag.text) with
  | some n =>
    simp only [hfind, Option.isSome_some, if_true]
    exact .skip
  | none =>
    simp only [hfind, Option.isSome_none, Bool.false_eq_true, if_false]
    apply Change.add
    · constructor <;> intro x hx <;> cases hx
    · intro mark' he
      cases he
      exact hfind

theorem change_ensureTierRoot (g : Graph) (tier : Tier) : g.Change (g.ensureTierRoot tier).2 := by
  unfold ensureTierRoot
  split
  · exact .rework (.refl g)
  · exact g.change_addSlice _

theorem reworked_addEdge (g : Graph) (source target : NodeRef) (type : EdgeType) (label : Option String) :
    g.Reworked (g.addEdge source target type label).2 :=
  reworked_of_nodes_eq rfl rfl rfl

theorem reworked_addEdgesOut (g : Graph) (source : NodeRef) (ends : List (NodeRef × EdgeType × Option String)) :
    g.Reworked (g.addEdgesOut source ends).2 := by
  induction ends generalizing g with
  | nil => exact .refl g
  | cons x rest ih => exact (g.reworked_addEdge source x.1 x.2.1 x.2.2).trans (ih _)

theorem reworked_addEdgesIn (g : Graph) (target : NodeRef) (ends : List (NodeRef × EdgeType)) :
    g.Reworked (g.addEdgesIn target ends).2 := by
  induction ends generalizing g with
  | nil => exact .refl g
  | cons x rest ih => exact (g.reworked_addEdge x.1 target x.2 none).trans (ih _)

/-- Whatever does not belong to the kind of a node can be altered. -/
theorem reworked_modifyNode_of_kind_eq {f : Node → Node} (hserial : ∀ a, (f a).serial = a.serial)
    (hkind : ∀ a, (f a).kind = a.kind) : g.Reworked (g.modifyNode n f) := by
  apply reworked_modifyNode
  · intro a _
    exact Node.same_of_kind_eq (hserial a) (hkind a)
  · intro a _ hs
    exact supports_of_kind_eq (hkind a) hs

theorem reworked_modifyEntry {f : EntryState → EntryState}
    (hf : ∀ s, ∀ x ∈ (f s).exceptionExits, x ∈ s.exceptionExits ∨ g.holds Node.isExit x = true) :
    g.Reworked (g.modifyNode n (Node.modifyEntry f)) := by
  apply reworked_modifyNode
  · intro a _
    exact Node.same_modifyEntry f a
  · intro a _ hs
    exact hs.modifyEntry hf

theorem reworked_modifyObject {f : ObjectState → ObjectState} (hentry : ∀ s, (f s).entry = s.entry)
    (hf : ∀ s, ∀ m ∈ (f s).members, m ∈ s.members ∨ m.2 < g.nodes.size) :
    g.Reworked (g.modifyNode n (Node.modifyObject f)) := by
  apply reworked_modifyNode
  · intro a _
    exact Node.same_modifyObject f a
  · intro a _ hs
    exact hs.modifyObject hentry hf

theorem of_expect_eq_ok {p : Node → Bool} {expected : NodeLabel} {u : Unit} (h : g.expect n p expected = .ok u)
    (ha : g.node? n = some a) : p a = true := by
  by_cases hp : p a = true
  · exact hp
  · simp [expect, ha, hp] at h

theorem holds_of_expect_eq_ok {p : Node → Bool} {expected : NodeLabel} {u : Unit}
    (h : g.expect n p expected = .ok u) : g.holds p n = true := by
  cases ha : g.node? n with
  | none => simp [expect, ha] at h
  | some a => exact holds_iff.2 ⟨a, ha, of_expect_eq_ok h ha⟩

theorem reworked_addExceptionExit (g : Graph) (entry exit : NodeRef) :
    g.Reworked (g.addExceptionExit entry exit).2 := by
  unfold addExceptionExit
  split
  · exact .refl g
  · exact .refl g
  · rename_i hexit _
    apply reworked_modifyEntry
    intro s x hx
    by_cases hold : s.exceptionExits.contains exit = true
    · simp only [hold, if_true] at hx
      exact .inl hx
    · simp only [hold, Bool.false_eq_true, if_false, List.mem_append, List.mem_singleton] at hx
      rcases hx with hx | rfl
      · exact .inl hx
      · exact .inr (holds_of_expect_eq_ok hexit)

theorem reworked_setIsConstructor (g : Graph) (entry : NodeRef) (flag : Bool) :
    g.Reworked (g.setIsConstructor entry flag).2 := by
  unfold setIsConstructor
  split
  · exact .refl g
  · exact reworked_modifyEntry fun s x hx => .inl hx

theorem exceptionExits_recordCall (tier : Option Tier) (s : EntryState) :
    (s.recordCall tier).exceptionExits = s.exceptionExits := by
  unfold EntryState.recordCall
  split <;> rfl

theorem reworked_addCall (g : Graph) (entry call : NodeRef) : g.Reworked (Query.addCall entry call g).graph := by
  cases h : g.expect entry (·.entryState?.isSome) .entry with
  | error _ =>
    simp only [Query.addCall, Query.bind_apply, Query.graph_apply, h]
    exact .refl g
  | ok _ =>
    simp only [Query.addCall, Query.bind_apply, Query.graph_apply, h, Query.edit]
    have hquery := reworked_of_forgetAll_eq (Query.faithful_tier call g).1
    apply hquery.trans
    apply reworked_modifyEntry
    intro s x hx
    rw [exceptionExits_recordCall] at hx
    exact .inl hx

theorem reworked_addMember {object member : NodeRef} (hmember : member < g.nodes.size) (name : String) :
    g.Reworked (g.addMember object name member).2 := by
  unfold addMember
  split
  · exact .refl g
  · apply (g.reworked_addEdge object member .member none).trans
    apply reworked_modifyObject
    · intro s
      rfl
    · intro s m hm
      simp only [ObjectState.bind, List.mem_cons, List.mem_filter] at hm
      rcases hm with rfl | hm
      · exact .inr hmember
      · exact .inl hm.1

theorem reworked_setConstructorNode (g : Graph) (object node : NodeRef) :
    g.Reworked (g.setConstructorNode object node).2 := by
  unfold setConstructorNode
  split
  · exact .refl g
  · exact reworked_modifyObject (fun _ => rfl) fun s m hm => .inl hm

theorem reworked_setArity (g : Graph) (call : NodeRef) (arity : Arity) : g.Reworked (g.setArity call arity).2 := by
  unfold setArity
  split
  · exact .refl g
  · rename_i hcall
    have hkind : ∀ a, g.node? call = some a → ∃ old, a.kind = .call old := by
      intro a ha
      have hisCall := of_expect_eq_ok hcall ha
      unfold Node.isCall at hisCall
      split at hisCall
      · exact ⟨_, ‹_›⟩
      · cases hisCall
    apply reworked_modifyNode
    · intro a ha
      obtain ⟨old, hold⟩ := hkind a ha
      exact ⟨rfl, by simp [Node.id, hold, NodeKind.id], by simp [Node.isExit, hold]⟩
    · intro a ha _
      constructor <;> intro x hx <;> cases hx

theorem reworked_setSettings (g : Graph) (settings : Settings) : g.Reworked (g.setSettings settings).2 := by
  unfold setSettings
  split
  · exact .refl g
  · exact reworked_of_nodes_eq rfl rfl rfl

end Graph

theorem Edit.change_apply {g : Graph} {e : Edit} (he : e.Within g) : g.Change (e.apply g) := by
  cases e with
  | addEntry | addObjectEntry | addCallNode | addStatement | addFormal | addActual | addExit =>
    apply Graph.change_addNode
    · intro mark hkind
      cases hkind
    · constructor <;> intro x hx <;> cases hx
  | addSliceRoot tag tier => exact g.change_addSlice _
  | addTierRoot tier => exact g.change_addSlice _
  | ensureTierRoot tier => exact g.change_ensureTierRoot tier
  | markRoot n | markObjectRoot n | forget n =>
    exact .rework (Graph.reworked_modifyNode_of_kind_eq (fun _ => rfl) fun _ => rfl)
  | addEdge source target type label => exact .rework (g.reworked_addEdge source target type label)
  | addEdgesOut source ends => exact .rework (g.reworked_addEdgesOut source ends)
  | addEdgesIn target ends => exact .rework (g.reworked_addEdgesIn target ends)
  | removeOut | removeIn => exact .rework (Graph.reworked_of_nodes_eq rfl rfl rfl)
  | addExceptionExit entry exit => exact .rework (g.reworked_addExceptionExit entry exit)
  | setIsConstructor entry flag => exact .rework (g.reworked_setIsConstructor entry flag)
  | addCall entry call => exact .rework (g.reworked_addCall entry call)
  | addMember object name member =>
    have hmember : member < g.nodes.size := he member (by simp [handles])
    exact .rework (Graph.reworked_addMember hmember name)
  | setConstructorNode object node => exact .rework (g.reworked_setConstructorNode object node)
  | setArity call arity => exact .rework (g.reworked_setArity call arity)
  | setSettings settings => exact .rework (g.reworked_setSettings settings)
  | forgetAll => exact .rework (Graph.reworked_of_forgetAll_eq g.forgetAll_forgetAll)
  | ask query => exact .rework (Graph.reworked_of_forgetAll_eq (MemoQuery.refreshed_after g query).1)

end Tierwise
