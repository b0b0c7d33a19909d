import Mathlib.Data.List.Sort
import Tierwise.Graph

/-! # The store as a list of live edges, oldest first

Indices are handed out again and come in no order, but serials only grow, so a new edge is the last one of the list and
a removal takes edges out without moving the others.
-/

namespace Tierwise

namespace EdgeStore

variable {s : EdgeStore} {i : Nat} {e : Edge}

/-! ### Entries sorted by serial -/

/-- Serials grow from each entry to the next, and so no two are the same. -/
def Ordered (entries : List (Nat × Edge)) : Prop := entries.Pairwise fun p q => p.1 < q.1

theorem insertEntry_eq_orderedInsert (p : Nat × Edge) (l : List (Nat × Edge)) :
    insertEntry p l = l.orderedInsert (Order.Preimage Prod.fst (· ≤ ·)) p := by
  induction l with
  | nil => rfl
  | cons q rest ih =>
    rw [insertEntry, List.orderedInsert_cons, ih]
    rfl

theorem sortEntries_eq_insertionSort (l : List (Nat × Edge)) :
    sortEntries l = l.insertionSort (Order.Preimage Prod.fst (· ≤ ·)) := by
  rw [sortEntries, List.insertionSort, funext₂ insertEntry_eq_orderedInsert]

theorem perm_sortEntries (l : List (Nat × Edge)) : (sortEntries l).Perm l := by
  rw [sortEntries_eq_insertionSort]
  exact List.perm_insertionSort _ l

theorem ordered_sortEntries {l : List (Nat × Edge)} (hl : l.Pairwise fun p q => p.1 ≠ q.1) :
    Ordered (sortEntries l) := by
  have hle : (sortEntries l).Pairwise fun p q => p.1 ≤ q.1 := by
    rw [sortEntries_eq_insertionSort]
    exact List.pairwise_insertionSort (Order.Preimage Prod.fst (· ≤ ·)) l
  have hne : (sortEntries l).Pairwise fun p q => p.1 ≠ q.1 := hl.perm (perm_sortEntries l).symm Ne.symm
  exact hle.imp₂ (fun _ _ => Nat.lt_of_le_of_ne) hne

/-- Two ordered lists with the same entries are the same list. -/
theorem Ordered.ext {l l' : List (Nat × Edge)} (hl : Ordered l) (hl' : Ordered l') (h : ∀ p, p ∈ l ↔ p ∈ l') :
    l = l' :=
  List.Pairwise.eq_of_mem_iff (r := Order.Preimage Prod.fst (· < ·)) hl hl' h

theorem sortEntries_filter {l : List (Nat × Edge)} (hl : l.Pairwise fun p q => p.1 ≠ q.1) (p : Nat × Edge → Bool) :
    sortEntries (l.filter p) = (sortEntries l).filter p := by
  refine (ordered_sortEntries (hl.filter p)).ext ((ordered_sortEntries hl).filter p) fun q => ?_
  rw [(perm_sortEntries _).mem_iff, List.mem_filter, List.mem_filter, (perm_sortEntries l).mem_iff]

/-! ### The entries of a store -/

theorem mem_entries {p : Nat × Edge} :
    p ∈ s.entries ↔ ∃ d, s.slot? p.2.index = some d ∧ p = (d.serial, d.at p.2.index) := by
  simp only [entries, List.mem_filterMap, List.mem_range, Option.map_eq_some_iff]
  constructor
  · rintro ⟨i, -, d, hd, rfl⟩
    exact ⟨d, hd, rfl⟩
  · rintro ⟨d, hd, hp⟩
    exact ⟨p.2.index, (Array.getElem?_eq_some_iff.1 (slot?_eq_some_iff.1 hd)).1, d, hd, hp.symm⟩

theorem pairwise_index_entries (s : EdgeStore) : s.entries.Pairwise fun p q => p.2.index < q.2.index := by
  unfold entries
  rw [List.pairwise_filterMap]
  refine List.pairwise_lt_range.imp ?_
  intro i j hij p hp q hq
  obtain ⟨d, -, rfl⟩ := Option.map_eq_some_iff.1 hp
  obtain ⟨d', -, rfl⟩ := Option.map_eq_some_iff.1 hq
  exact hij

theorem pairwise_serial_entries (s : EdgeStore) : s.entries.Pairwise fun p q => p.1 ≠ q.1 := by
  refine s.pairwise_index_entries.imp_of_mem ?_
  intro p q hp hq hlt heq
  obtain ⟨d, hd, hpd⟩ := mem_entries.1 hp
  obtain ⟨d', hd', hqd⟩ := mem_entries.1 hq
  rw [hpd, hqd] at heq
  have := s.serial_inj _ _ d d' (slot?_eq_some_iff.1 hd) (slot?_eq_some_iff.1 hd') heq
  omega

/-- All entries, oldest first. -/
def timeline (s : EdgeStore) : List (Nat × Edge) := sortEntries s.entries

theorem ordered_timeline (s : EdgeStore) : Ordered s.timeline := ordered_sortEntries s.pairwise_serial_entries

theorem mem_timeline {p : Nat × Edge} :
    p ∈ s.timeline ↔ ∃ d, s.slot? p.2.index = some d ∧ p = (d.serial, d.at p.2.index) := by
  rw [timeline, (perm_sortEntries _).mem_iff, mem_entries]

/-! ### Adding and giving back -/

theorem slot?_nextIndex (s : EdgeStore) : s.slot? s.nextIndex = none := by
  unfold slot? nextIndex
  cases h : s.freed with
  | nil => simp
  | cons i rest => simp [s.vacant_of_freed i (by simp [h])]

theorem slot?_add (s : EdgeStore) (source target : NodeRef) (type : EdgeType) (label : Option String) (i : Nat) :
    (s.add source target type label).slot? i =
      if i = s.nextIndex then some ⟨s.made + 1, source, target, type, label⟩ else s.slot? i := by
  unfold slot? add
  simp only [getElem?_place]
  split <;> rfl

theorem slot?_vacate (s : EdgeStore) (i j : Nat) : (s.vacate i).slot? j = if j = i then none else s.slot? j := by
  unfold vacate
  split
  · rename_i h
    split
    · rename_i hji
      rw [hji, h]
    · rfl
  · rename_i h
    unfold slot?
    simp only [getElem?_vacated h]
    split <;> rfl

theorem timeline_add (s : EdgeStore) (source target : NodeRef) (type : EdgeType) (label : Option String) :
    (s.add source target type label).timeline =
      s.timeline ++ [(s.made + 1, ⟨s.nextIndex, source, target, type, label⟩)] := by
  refine (ordered_timeline _).ext ?_ fun p => ?_
  · refine List.pairwise_append.2 ⟨s.ordered_timeline, List.pairwise_singleton _ _, fun p hp q hq => ?_⟩
    obtain ⟨d, hd, hpd⟩ := mem_timeline.1 hp
    have := s.serial_le _ d (slot?_eq_some_iff.1 hd)
    rw [List.mem_singleton.1 hq, hpd]
    exact Nat.lt_succ_of_le this
  · rw [List.mem_append, mem_timeline, mem_timeline, List.mem_singleton, slot?_add]
    by_cases hi : p.2.index = s.nextIndex
    · simp [hi, slot?_nextIndex, StoredEdge.at]
    · simp only [hi, if_false]
      constructor
      · exact .inl
      · rintro (h | rfl)
        · exact h
        · exact absurd rfl hi

theorem timeline_vacate (s : EdgeStore) (i : Nat) :
    (s.vacate i).timeline = s.timeline.filter fun p => p.2.index != i := by
  refine (ordered_timeline _).ext (s.ordered_timeline.filter _) fun p => ?_
  rw [List.mem_filter, mem_timeline, mem_timeline, slot?_vacate]
  by_cases hi : p.2.index = i <;> simp [hi]

/-! ### Live edges -/

theorem live_eq_map_timeline (s : EdgeStore) : s.live = s.timeline.map Prod.snd := rfl

theorem get?_eq_some_iff : s.get? i = some e ↔ e ∈ s.live ∧ e.index = i := by
  rw [live_eq_map_timeline, List.mem_map]
  constructor
  · intro h
    obtain ⟨d, hd, rfl⟩ := Option.map_eq_some_iff.1 h
    exact ⟨⟨(d.serial, d.at i), mem_timeline.2 ⟨d, hd, rfl⟩, rfl⟩, rfl⟩
  · rintro ⟨⟨p, hp, rfl⟩, rfl⟩
    obtain ⟨d, hd, hpd⟩ := mem_timeline.1 hp
    rw [get?, hd, Option.map_some]
    exact congrArg some (congrArg Prod.snd hpd).symm

theorem mem_live : e ∈ s.live ↔ s.get? e.index = some e := by
  simp [get?_eq_some_iff]

theorem eq_of_index_eq {d : Edge} (hd : d ∈ s.live) (he : e ∈ s.live) (h : d.index = e.index) : d = e := by
  rw [mem_live] at hd he
  rw [h, he] at hd
  exact (Option.some.inj hd).symm

theorem nodup_index_live (s : EdgeStore) : (s.live.map Edge.index).Nodup := by
  have hperm : (s.live.map Edge.index).Perm (s.entries.map fun p => p.2.index) := by
    rw [live_eq_map_timeline, List.map_map]
    exact (perm_sortEntries s.entries).map _
  rw [hperm.nodup_iff]
  exact List.pairwise_map.2 (s.pairwise_index_entries.imp Nat.ne_of_lt)

theorem nodup_live (s : EdgeStore) : s.live.Nodup := .of_map Edge.index s.nodup_index_live

theorem index_ne_nextIndex (he : e ∈ s.live) : e.index ≠ s.nextIndex := by
  intro h
  rw [mem_live, h, get?, slot?_nextIndex] at he
  simp at he

theorem length_entries (s : EdgeStore) : s.entries.length = s.live.length := by
  rw [live_eq_map_timeline, List.length_map]
  exact (perm_sortEntries s.entries).length_eq.symm

@[simp] theorem live_add (s : EdgeStore) (source target : NodeRef) (type : EdgeType) (label : Option String) :
    (s.add source target type label).live = s.live ++ [⟨s.nextIndex, source, target, type, label⟩] := by
  simp [live_eq_map_timeline, timeline_add]

theorem live_vacate (s : EdgeStore) (i : Nat) : (s.vacate i).live = s.live.filter fun e => e.index != i := by
  rw [live_eq_map_timeline, live_eq_map_timeline, timeline_vacate, List.filter_map]
  rfl

/-- Choosing before or after sorting makes no difference. -/
theorem inOrder_filter_entries (s : EdgeStore) (p : Edge → Bool) :
    inOrder (s.entries.filter fun q => p q.2) = s.live.filter p := by
  rw [inOrder, sortEntries_filter s.pairwise_serial_entries, live_eq_map_timeline, List.filter_map]
  rfl

theorem around_eq_filter (s : EdgeStore) (side : Side) (n : NodeRef) (type : Option EdgeType) :
    s.around side n type = s.live.filter fun e => e.near side == n && e.hasType type :=
  s.inOrder_filter_entries fun e => e.near side == n && e.hasType type

theorem between_eq_filter (s : EdgeStore) (source target : NodeRef) (type : Option EdgeType) :
    s.between source target type = s.live.filter (Edge.joins source target type) :=
  s.inOrder_filter_entries (Edge.joins source target type)

theorem live_foldr_vacate (s : EdgeStore) (es : List Edge) :
    (es.foldr (fun e s => s.vacate e.index) s).live = s.live.filter fun e => !(es.map Edge.index).contains e.index := by
  induction es with
  | nil => exact (List.filter_eq_self.2 fun _ _ => rfl).symm
  | cons d rest ih =>
    rw [List.foldr_cons, live_vacate, ih, List.filter_filter]
    congr 1
    funext e
    rw [List.map_cons, List.contains_cons, Bool.not_or]
    rfl

/-- A removal takes out exactly the edges it is asked for. -/
@[simp] theorem live_remove (s : EdgeStore) (source target : NodeRef) (type : Option EdgeType) :
    (s.remove source target type).live = s.live.filter fun e => !e.joins source target type := by
  rw [remove, live_foldr_vacate, between_eq_filter]
  refine List.filter_congr fun e he => ?_
  congr 1
  rw [Bool.eq_iff_iff, List.contains_iff_mem, List.mem_map]
  constructor
  · rintro ⟨d, hd, hindex⟩
    obtain ⟨hlive, hjoins⟩ := List.mem_filter.1 hd
    rwa [← eq_of_index_eq hlive he hindex]
  · intro hjoins
    exact ⟨e, List.mem_filter.2 ⟨he, hjoins⟩, rfl⟩

end EdgeStore

/-! ### What a node sees -/

theorem Edge.hasType_iff {type : Option EdgeType} {e : Edge} :
    e.hasType type = true ↔ type = none ∨ type = some e.type := by
  cases type with
  | none => simp [Edge.hasType]
  | some t => simp [Edge.hasType, eq_comm (a := t)]

namespace Graph

theorem edgesAt_eq_filter (g : Graph) (side : Side) (n : NodeRef) (type : Option EdgeType) :
    g.edgesAt side n type = g.edges.live.filter fun e => e.near side = n ∧ (type = none ∨ type = some e.type) := by
  rw [edgesAt, EdgeStore.around_eq_filter]
  congr 1
  funext e
  rw [Bool.eq_iff_iff]
  simp [Edge.hasType_iff]

theorem mem_edgesAt {g : Graph} {side : Side} {n : NodeRef} {type : Option EdgeType} {e : Edge} :
    e ∈ g.edgesAt side n type ↔ e ∈ g.edges.live ∧ e.near side = n ∧ (type = none ∨ type = some e.type) := by
  simp [edgesAt_eq_filter]

theorem mem_edgesAt_some {g : Graph} {side : Side} {n : NodeRef} {type : EdgeType} {e : Edge} :
    e ∈ g.edgesAt side n (some type) ↔ e ∈ g.edges.live ∧ e.near side = n ∧ e.type = type := by
  simp [mem_edgesAt, eq_comm (a := type)]

theorem nodup_edgesAt (g : Graph) (side : Side) (n : NodeRef) (type : Option EdgeType) :
    (g.edgesAt side n type).Nodup := by
  rw [edgesAt_eq_filter]
  exact g.edges.nodup_live.filter _

/-- No edge is seen by two nodes from the same side. -/
theorem nodup_flatMap_edgesAt {ns : List NodeRef} (hns : ns.Nodup) (g : Graph) (side : Side) (type : Option EdgeType) :
    (ns.flatMap fun n => g.edgesAt side n type).Nodup := by
  rw [List.Nodup, List.pairwise_flatMap]
  constructor
  · intro n _
    exact g.nodup_edgesAt side n type
  · apply hns.imp
    rintro m n hne e hm d hn rfl
    rw [mem_edgesAt] at hm hn
    exact hne (hm.2.1.symm.trans hn.2.1)

theorem length_le_edgeCount {g : Graph} {es : List Edge} (hnodup : es.Nodup) (hlive : es ⊆ g.edges.live) :
    es.length ≤ g.edgeCount := by
  rw [edgeCount, EdgeStore.length_entries]
  exact hnodup.length_le_of_subset hlive

theorem mem_neighbours_some {g : Graph} {side : Side} {n m : NodeRef} {type : EdgeType} :
    m ∈ g.neighbours side n (some type) ↔ ∃ e ∈ g.edges.live, e.near side = n ∧ e.type = type ∧ e.far side = m := by
  simp [neighbours, mem_edgesAt_some, and_assoc]

end Graph

end Tierwise
