import Tierwise.Construct

/-! # Ids and the nodes that they find -/

namespace Tierwise

/-- A table from ids to nodes. No id stands in it twice. -/
structure IdTable where
  rows : List (String × NodeRef) := []
  nodup_ids : (rows.map Prod.fst).Nodup := by exact List.nodup_nil
deriving DecidableEq, Repr, Inhabited

namespace IdTable

def size (t : IdTable) : Nat := t.rows.length

def find? (t : IdTable) (id : String) : Option NodeRef := t.rows.lookup id

/-- An id that is in the table finds the new node from now on. -/
def insert (t : IdTable) (id : String) (n : NodeRef) : IdTable where
  rows := (id, n) :: t.rows.filter (·.1 != id)
  nodup_ids := by
    rw [List.map_cons, List.nodup_cons]
    constructor
    · simp
    · exact t.nodup_ids.sublist (List.filter_sublist.map Prod.fst)

theorem lookup_eq_some_iff {rows : List (String × NodeRef)} (h : (rows.map Prod.fst).Nodup) {id : String}
    {n : NodeRef} : rows.lookup id = some n ↔ (id, n) ∈ rows := by
  induction rows with
  | nil => simp
  | cons row rest ih =>
    obtain ⟨other, m⟩ := row
    rw [List.map_cons, List.nodup_cons] at h
    by_cases hid : id = other
    · subst hid
      have hrest : (id, n) ∉ rest := fun hmem => h.1 (List.mem_map.2 ⟨_, hmem, rfl⟩)
      simp [hrest, eq_comm]
    · simp [List.lookup_cons, beq_eq_false_iff_ne.2 hid, hid, ih h.2]

theorem find?_eq_some_iff {t : IdTable} {id : String} {n : NodeRef} : t.find? id = some n ↔ (id, n) ∈ t.rows :=
  lookup_eq_some_iff t.nodup_ids

theorem find?_insert (t : IdTable) (id other : String) (n : NodeRef) :
    (t.insert id n).find? other = if other = id then some n else t.find? other := by
  ext m
  rw [find?_eq_some_iff]
  by_cases hid : other = id
  · simp [insert, hid, eq_comm]
  · simp [insert, hid, find?_eq_some_iff]

end IdTable

end Tierwise
