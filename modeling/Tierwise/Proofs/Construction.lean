import Tierwise.Export
import Tierwise.Proofs.Construction.Change
import Tierwise.Proofs.Edge.Order
import Tierwise.Proofs.Ids

/-! # Rules of construction

No operation breaks them, so every graph that can be reached keeps them: its ids are all different and find their nodes,
its creation numbers go up, and its check of itself finds nothing.
-/

namespace Tierwise

namespace Graph

variable {g h : Graph}

/-- The rules that every operation keeps. -/
structure Built (g : Graph) : Prop where
  serial_lt : ∀ m n a b, g.node? m = some a → g.node? n = some b → m < n → a.serial < b.serial
  serial_le : ∀ n a, g.node? n = some a → a.serial ≤ g.serial
  find?_iff : ∀ id n, g.find? id = some n ↔ ∃ a, g.node? n = some a ∧ a.id = id
  supports : ∀ n a, g.node? n = some a → g.Supports a

theorem built_of_nodes_eq_empty (hnodes : g.nodes = #[]) (hids : g.ids = {}) : g.Built := by
  have hnode : ∀ n a, g.node? n ≠ some a := by
    intro n a ha
    simp [node?, hnodes] at ha
  constructor
  · intro m n a b ha
    exact absurd ha (hnode m a)
  · intro n a ha
    exact absurd ha (hnode n a)
  · intro id n
    rw [find?, IdTable.find?_eq_some_iff, hids]
    constructor
    · intro hmem
      cases hmem
    · rintro ⟨a, ha, -⟩
      exact absurd ha (hnode n a)
  · intro n a ha
    exact absurd ha (hnode n a)

theorem Built.rework (hg : g.Built) (hgh : g.Reworked h) : h.Built := by
  constructor
  · intro m n a b ha hb hmn
    obtain ⟨a', ha', hsame, -⟩ := hgh.exists_before ha
    obtain ⟨b', hb', hsame', -⟩ := hgh.exists_before hb
    rw [hsame.serial, hsame'.serial]
    exact hg.serial_lt m n a' b' ha' hb' hmn
  · intro n a ha
    obtain ⟨a', ha', hsame, -⟩ := hgh.exists_before ha
    rw [hsame.serial, hgh.serial]
    exact hg.serial_le n a' ha'
  · intro id n
    rw [find?, hgh.ids]
    change g.find? id = some n ↔ _
    rw [hg.find?_iff]
    constructor
    · rintro ⟨a, ha, hid⟩
      obtain ⟨b, hb, hsame, -⟩ := hgh.node n a ha
      exact ⟨b, hb, hsame.id.trans hid⟩
    · rintro ⟨b, hb, hid⟩
      obtain ⟨a, ha, hsame, -⟩ := hgh.exists_before hb
      exact ⟨a, ha, hsame.id.symm.trans hid⟩
  · intro n b hb
    obtain ⟨a, ha, -, hs⟩ := hgh.exists_before hb
    exact hs (hg.supports n a ha)

theorem Built.skip (hg : g.Built) : Built { g with serial := g.serial + 1 } where
  serial_lt := hg.serial_lt
  serial_le n a ha := Nat.le_succ_of_le (hg.serial_le n a ha)
  find?_iff := hg.find?_iff
  supports n a ha := ⟨(hg.supports n a ha).exits, (hg.supports n a ha).members⟩

/-- A node of a graph to which one was added is the new one or was there before. -/
theorem node?_addNode_eq_some {kind : NodeKind} {construct : Option Construct} {n : NodeRef} {a : Node}
    (ha : (g.addNode kind construct).2.node? n = some a) :
    (n = g.nodes.size ∧ a = { serial := g.serial + 1, kind, construct }) ∨ (n < g.nodes.size ∧ g.node? n = some a) := by
  by_cases hn : n < g.nodes.size
  · rw [node?_addNode_of_lt hn] at ha
    exact .inr ⟨hn, ha⟩
  · have hlt : n < (g.addNode kind construct).2.nodes.size := exists_node?_iff.1 ⟨a, ha⟩
    have heq : n = g.nodes.size := by
      simp only [addNode, Array.size_push] at hlt
      exact Nat.eq_of_lt_succ_of_not_lt hlt hn
    subst heq
    exact .inl ⟨rfl, Option.some.inj (ha.symm.trans (g.node?_addNode kind construct))⟩

/-- The id of a new node is not in use. -/
theorem Built.id_ne (hg : g.Built) {kind : NodeKind}
    (hslice : ∀ mark, kind = .slice mark → g.find? ("C" ++ mark.tag.text) = none) {n : NodeRef} {a : Node}
    (ha : g.node? n = some a) : a.id ≠ kind.id (g.serial + 1) := by
  intro hid
  rcases NodeKind.eq_or_slice_of_id_eq hid with hserial | ⟨mark, hkind, hid⟩
  · have := hg.serial_le n a ha
    omega
  · have hfound : g.find? ("C" ++ mark.tag.text) = some n := (hg.find?_iff _ n).2 ⟨a, ha, hid⟩
    rw [hslice mark hkind] at hfound
    cases hfound

theorem Built.add (hg : g.Built) {kind : NodeKind} {construct : Option Construct}
    (hs : g.Supports { serial := g.serial + 1, kind, construct })
    (hslice : ∀ mark, kind = .slice mark → g.find? ("C" ++ mark.tag.text) = none) :
    (g.addNode kind construct).2.Built := by
  have hmono : ∀ a, g.Supports a → (g.addNode kind construct).2.Supports a := by
    intro a ha
    apply ha.mono
    · simp [addNode]
    · intro x hx
      obtain ⟨b, hb, hbx⟩ := holds_iff.1 hx
      rw [holds_iff]
      exact ⟨b, by rw [node?_addNode_of_lt (exists_node?_iff.1 ⟨b, hb⟩), hb], hbx⟩
  constructor
  · intro m n a b ha hb hmn
    rcases node?_addNode_eq_some ha with ⟨rfl, rfl⟩ | ⟨hm, ha⟩
    · rcases node?_addNode_eq_some hb with ⟨rfl, -⟩ | ⟨hn, -⟩
      · exact absurd hmn (Nat.lt_irrefl _)
      · exact absurd hmn (Nat.lt_asymm hn)
    · rcases node?_addNode_eq_some hb with ⟨rfl, rfl⟩ | ⟨-, hb⟩
      · exact Nat.lt_succ_of_le (hg.serial_le m a ha)
      · exact hg.serial_lt m n a b ha hb hmn
  · intro n a ha
    rcases node?_addNode_eq_some ha with ⟨rfl, rfl⟩ | ⟨-, ha⟩
    · exact Nat.le_refl _
    · exact Nat.le_succ_of_le (hg.serial_le n a ha)
  · intro id n
    change (g.ids.insert (kind.id (g.serial + 1)) g.nodes.size).find? id = some n ↔ _
    rw [IdTable.find?_insert]
    by_cases hid : id = kind.id (g.serial + 1)
    · subst hid
      simp only [if_true, Option.some.injEq]
      constructor
      · rintro rfl
        exact ⟨_, g.node?_addNode kind construct, rfl⟩
      · rintro ⟨a, ha, hid⟩
        rcases node?_addNode_eq_some ha with ⟨rfl, -⟩ | ⟨-, ha⟩
        · rfl
        · exact absurd hid (hg.id_ne hslice ha)
    · simp only [hid, if_false]
      change g.find? id = some n ↔ _
      rw [hg.find?_iff]
      constructor
      · rintro ⟨a, ha, hid⟩
        exact ⟨a, by rw [node?_addNode_of_lt (exists_node?_iff.1 ⟨a, ha⟩), ha], hid⟩
      · rintro ⟨a, ha, hida⟩
        rcases node?_addNode_eq_some ha with ⟨rfl, rfl⟩ | ⟨-, ha⟩
        · exact absurd hida.symm hid
        · exact ⟨a, ha, hida⟩
  · intro n a ha
    rcases node?_addNode_eq_some ha with ⟨rfl, rfl⟩ | ⟨-, ha⟩
    · exact hmono _ hs
    · exact hmono a (hg.supports n a ha)

theorem Built.change (hg : g.Built) (hgh : g.Change h) : h.Built := by
  cases hgh with
  | rework hgh => exact hg.rework hgh
  | skip => exact hg.skip
  | add hs hslice => exact hg.add hs hslice

theorem Attained.built (hg : g.Attained) : g.Built := by
  induction hg with
  | empty => exact built_of_nodes_eq_empty rfl rfl
  | @withSettings s g hs =>
    unfold Graph.withSettings at hs
    split at hs
    · cases hs
    · cases hs
      exact built_of_nodes_eq_empty rfl rfl
  | edit _ he ih => exact ih.change (Edit.change_apply he)

/-! ### What the rules give -/

theorem Built.eq_of_id_eq (hg : g.Built) {m n : NodeRef} {a b : Node} (ha : g.node? m = some a)
    (hb : g.node? n = some b) (hid : a.id = b.id) : m = n := by
  have hm : g.find? b.id = some m := (hg.find?_iff b.id m).2 ⟨a, ha, hid⟩
  have hn : g.find? b.id = some n := (hg.find?_iff b.id n).2 ⟨b, hb, rfl⟩
  rw [hm] at hn
  exact Option.some.inj hn

theorem Built.nodup_ids (hg : g.Built) : (g.nodes.toList.map Node.id).Nodup := by
  rw [List.Nodup, List.pairwise_map, List.pairwise_iff_getElem]
  intro i j hi hj hij hid
  have ha : g.node? i = some g.nodes.toList[i] := by
    rw [node?, ← Array.getElem?_toList, List.getElem?_eq_getElem hi]
  have hb : g.node? j = some g.nodes.toList[j] := by
    rw [node?, ← Array.getElem?_toList, List.getElem?_eq_getElem hj]
  exact absurd (hg.eq_of_id_eq ha hb hid) (Nat.ne_of_lt hij)

theorem mem_map_id {id : String} : id ∈ g.nodes.toList.map Node.id ↔ ∃ n a, g.node? n = some a ∧ a.id = id := by
  rw [List.mem_map]
  constructor
  · rintro ⟨a, ha, hid⟩
    obtain ⟨n, hn⟩ := List.mem_iff_getElem?.1 ha
    exact ⟨n, a, by rw [node?, ← Array.getElem?_toList, hn], hid⟩
  · rintro ⟨n, a, ha, hid⟩
    rw [node?, ← Array.getElem?_toList] at ha
    exact ⟨a, List.mem_of_getElem? ha, hid⟩

/-- The table holds the ids of the nodes and no others. -/
theorem Built.perm_ids (hg : g.Built) : (g.ids.rows.map Prod.fst).Perm (g.nodes.toList.map Node.id) := by
  rw [List.perm_ext_iff_of_nodup g.ids.nodup_ids hg.nodup_ids]
  intro id
  rw [mem_map_id, List.mem_map]
  constructor
  · rintro ⟨⟨_, n⟩, hrow, rfl⟩
    exact ⟨n, (hg.find?_iff _ n).1 (IdTable.find?_eq_some_iff.2 hrow)⟩
  · rintro ⟨n, hn⟩
    exact ⟨(id, n), IdTable.find?_eq_some_iff.1 ((hg.find?_iff id n).2 hn), rfl⟩

theorem Built.size_ids (hg : g.Built) : g.ids.size = g.nodeCount := by
  simpa [IdTable.size, nodeCount] using hg.perm_ids.length_eq

theorem Built.fault?_eq_none (hg : g.Built) (n : NodeRef) : g.fault? n = none := by
  unfold fault?
  cases ha : g.node? n with
  | none => rfl
  | some a =>
    have hfind : g.find? a.id = some n := (hg.find?_iff a.id n).2 ⟨a, ha, rfl⟩
    have hexits : a.exceptionExits.findSome? (g.exitFault? a) = none := by
      rw [List.findSome?_eq_none_iff]
      intro x hx
      obtain ⟨b, hb, hexit⟩ := holds_iff.1 ((hg.supports n a ha).exits x hx)
      simp [exitFault?, hb, hexit]
    have hmembers : a.members.findSome? (g.memberFault? a) = none := by
      rw [List.findSome?_eq_none_iff]
      intro m hm
      obtain ⟨b, hb⟩ := exists_node?_iff.2 ((hg.supports n a ha).members m hm)
      simp [memberFault?, hb]
    simp [hfind, hexits, hmembers]

theorem edgeFault?_eq_none {e : Nat × Edge} (he : e ∈ g.edges.entries) : g.edgeFault? e.2.index = none := by
  obtain ⟨d, hslot, -⟩ := EdgeStore.mem_entries.1 he
  simp [edgeFault?, edge?, EdgeStore.get?, hslot]

theorem Built.verify_eq_ok (hg : g.Built) : g.verify = .ok () := by
  have hnodes : (List.range g.nodes.size).findSome? g.fault? = none := by
    rw [List.findSome?_eq_none_iff]
    intro n _
    exact hg.fault?_eq_none n
  have hedges : (g.edges.entries.map (·.2.index)).findSome? g.edgeFault? = none := by
    rw [List.findSome?_eq_none_iff]
    intro i hi
    obtain ⟨e, he, rfl⟩ := List.mem_map.1 hi
    exact edgeFault?_eq_none he
  simp [verify, hg.size_ids, hnodes, hedges]

theorem Built.nodeRefs_eq (hg : g.Built) : g.nodeRefs = List.range g.nodes.size := by
  apply List.mergeSort_of_pairwise
  apply List.pairwise_lt_range.imp_of_mem
  intro m n hm hn hmn
  obtain ⟨a, ha⟩ := exists_node?_iff.2 (List.mem_range.1 hm)
  obtain ⟨b, hb⟩ := exists_node?_iff.2 (List.mem_range.1 hn)
  have hlt := hg.serial_lt m n a b ha hb hmn
  simpa [serialOf, ha, hb] using Nat.le_of_lt hlt

/-- The rules as they are seen from outside. -/
structure WellBuilt (g : Graph) : Prop where
  nodup_ids : (g.nodes.toList.map Node.id).Nodup
  /-- An id finds the node that has it, and nothing else. -/
  find?_iff : ∀ id n, g.find? id = some n ↔ ∃ a, g.node? n = some a ∧ a.id = id
  /-- A node that comes later has a greater creation number. -/
  serial_lt : ∀ m n a b, g.node? m = some a → g.node? n = some b → m < n → a.serial < b.serial
  serial_le : ∀ n a, g.node? n = some a → a.serial ≤ g.serial
  /-- The order of creation is the order of the nodes. -/
  nodeRefs_eq : g.nodeRefs = List.range g.nodes.size
  /-- An id that begins with the letter C belongs to a slice root, and the rest of it is the tag. -/
  slice_of_id : ∀ n a rest, g.node? n = some a → a.id = "C" ++ rest →
    ∃ mark, a.kind = .slice mark ∧ a.id = "C" ++ mark.tag.text
  verify_eq_ok : g.verify = .ok ()

/-- Every graph that can be reached keeps the rules of construction. -/
theorem wellBuilt_of_attained (hg : g.Attained) : g.WellBuilt where
  nodup_ids := hg.built.nodup_ids
  find?_iff := hg.built.find?_iff
  serial_lt := hg.built.serial_lt
  serial_le := hg.built.serial_le
  nodeRefs_eq := hg.built.nodeRefs_eq
  slice_of_id := by
    intro n a rest _ hid
    obtain ⟨mark, hkind, htext⟩ := NodeKind.exists_mark_of_id_eq hid
    exact ⟨mark, hkind, by rw [hid, htext]⟩
  verify_eq_ok := hg.built.verify_eq_ok

/-- A second root with the same spelling is refused, an exit is registered, a member is bound, and a tier is asked for
before its edge goes. -/
def refusedRoot : Graph :=
  Edit.applyAll empty [.addTierRoot .client, .addSliceRoot (.named "client") none, .addEntry none, .addExit none true,
    .addExceptionExit 1 2, .addObjectEntry none, .addMember 3 "run" 1, .addEdge 0 1 .control none, .ask (.tier 1),
    .removeOut 0 1 none]

theorem wellBuilt_of_attained_refusedRoot :
    refusedRoot.Attained ∧ refusedRoot.serial = 5 ∧ refusedRoot.nodes.toList.map Node.id = ["Cclient", "e3", "ex4", "o5"] ∧
      refusedRoot.WellBuilt := by
  have hattained : refusedRoot.Attained := Attained.empty.applyAll (by decide)
  exact ⟨hattained, by decide, by decide, wellBuilt_of_attained hattained⟩

end Graph

end Tierwise
