import Tierwise.Edge

/-! # Edges under indices that are used again

A removal gives its index back, and the edges that are left are read in order of creation.
-/

namespace Tierwise

/-- An edge as it is kept. Its index is the place where it is kept. -/
structure StoredEdge where
  /-- The number of edges made up to this one. -/
  serial : Nat
  source : NodeRef
  target : NodeRef
  type : EdgeType
  label : Option String
deriving DecidableEq, Repr, Inhabited

def StoredEdge.at (index : Nat) (e : StoredEdge) : Edge := ⟨index, e.source, e.target, e.type, e.label⟩

namespace EdgeStore

/-! What is asked of a store holds where there are no slots. -/

theorem vacant_of_freed_empty : ∀ i ∈ ([] : List Nat), (#[] : Array (Option StoredEdge))[i]? = some none :=
  List.forall_mem_nil _

theorem serial_le_empty (i : Nat) (e : StoredEdge) (h : (#[] : Array (Option StoredEdge))[i]? = some (some e)) :
    e.serial ≤ 0 :=
  nomatch Array.getElem?_empty.symm.trans h

theorem serial_inj_empty (i j : Nat) (d e : StoredEdge) (h : (#[] : Array (Option StoredEdge))[i]? = some (some d))
    (_ : (#[] : Array (Option StoredEdge))[j]? = some (some e)) (_ : d.serial = e.serial) : i = j :=
  nomatch Array.getElem?_empty.symm.trans h

end EdgeStore

structure EdgeStore where
  /-- A place for every index that was ever handed out. -/
  slots : Array (Option StoredEdge) := #[]
  /-- Indices given back by removals, the next one to use first. -/
  freed : List Nat := []
  /-- The number of edges ever made. -/
  made : Nat := 0
  nodup_freed : freed.Nodup := by exact List.nodup_nil
  vacant_of_freed : ∀ i ∈ freed, slots[i]? = some none := by exact EdgeStore.vacant_of_freed_empty
  serial_le : ∀ (i : Nat) (e : StoredEdge), slots[i]? = some (some e) → e.serial ≤ made := by
    exact EdgeStore.serial_le_empty
  /-- No two edges have the same serial. -/
  serial_inj : ∀ (i j : Nat) (d e : StoredEdge), slots[i]? = some (some d) → slots[j]? = some (some e) →
    d.serial = e.serial → i = j := by exact EdgeStore.serial_inj_empty
deriving DecidableEq, Repr, Inhabited

namespace EdgeStore

def slot? (s : EdgeStore) (index : Nat) : Option StoredEdge := s.slots[index]?.join

def get? (s : EdgeStore) (index : Nat) : Option Edge := (s.slot? index).map (StoredEdge.at index)

/-- The edges with their serials, by index. -/
def entries (s : EdgeStore) : List (Nat × Edge) :=
  (List.range s.slots.size).filterMap fun i => (s.slot? i).map fun e => (e.serial, e.at i)

/-- Puts an edge before the first one that was made later. The recursion is on the list, so that a store can be read by
evaluation in proofs too. -/
def insertEntry (e : Nat × Edge) : List (Nat × Edge) → List (Nat × Edge)
  | [] => [e]
  | f :: rest => if e.1 ≤ f.1 then e :: f :: rest else f :: insertEntry e rest

def sortEntries (entries : List (Nat × Edge)) : List (Nat × Edge) := entries.foldr insertEntry []

def inOrder (entries : List (Nat × Edge)) : List Edge := (sortEntries entries).map Prod.snd

def live (s : EdgeStore) : List Edge := inOrder s.entries

def around (s : EdgeStore) (side : Side) (n : NodeRef) (type : Option EdgeType) : List Edge :=
  inOrder (s.entries.filter fun e => e.2.near side == n && e.2.hasType type)

def between (s : EdgeStore) (source target : NodeRef) (type : Option EdgeType) : List Edge :=
  inOrder (s.entries.filter fun e => e.2.joins source target type)

/-- The index of the next edge: the one given back last, or one never used. -/
def nextIndex (s : EdgeStore) : Nat := s.freed.headD s.slots.size

/-- The slots with an edge put under the next index. -/
def place (s : EdgeStore) (e : StoredEdge) : Array (Option StoredEdge) :=
  match s.freed with
  | [] => s.slots.push (some e)
  | i :: _ => s.slots.setIfInBounds i (some e)

theorem slot?_eq_some_iff {s : EdgeStore} {i : Nat} {e : StoredEdge} :
    s.slot? i = some e ↔ s.slots[i]? = some (some e) := by
  simp [slot?, Option.join_eq_some_iff]

theorem getElem?_place (s : EdgeStore) (e : StoredEdge) (i : Nat) :
    (s.place e)[i]? = if i = s.nextIndex then some (some e) else s.slots[i]? := by
  unfold place nextIndex
  cases h : s.freed with
  | nil => simp [Array.getElem?_push]
  | cons j rest =>
    have hj := s.vacant_of_freed j (by simp [h])
    have hlt : j < s.slots.size := (Array.getElem?_eq_some_iff.1 hj).1
    simp [Array.getElem?_setIfInBounds, hlt, eq_comm]

theorem nextIndex_notMem_tail (s : EdgeStore) : s.freed = [] ∨ s.nextIndex ∉ s.freed.tail := by
  have hn := s.nodup_freed
  unfold nextIndex
  cases h : s.freed with
  | nil => exact .inl rfl
  | cons j rest =>
    rw [h] at hn
    exact .inr (List.nodup_cons.1 hn).1

def add (s : EdgeStore) (source target : NodeRef) (type : EdgeType) (label : Option String) : EdgeStore where
  slots := s.place ⟨s.made + 1, source, target, type, label⟩
  freed := s.freed.tail
  made := s.made + 1
  nodup_freed := s.nodup_freed.sublist (List.tail_sublist _)
  vacant_of_freed := by
    intro i hi
    have hne : i ≠ s.nextIndex := by
      rintro rfl
      rcases s.nextIndex_notMem_tail with h | h
      · simp [h] at hi
      · exact h hi
    rw [getElem?_place, if_neg hne]
    exact s.vacant_of_freed i (List.mem_of_mem_tail hi)
  serial_le := by
    intro i e h
    rw [getElem?_place] at h
    split at h
    · cases h
      exact Nat.le_refl _
    · exact Nat.le_succ_of_le (s.serial_le i e h)
  serial_inj := by
    intro i j d e hi hj hs
    rw [getElem?_place] at hi hj
    split at hi <;> split at hj
    · simp_all
    · cases hi
      have := s.serial_le j e hj
      exact absurd hs (by simp only; omega)
    · cases hj
      have := s.serial_le i d hi
      exact absurd hs (by simp only; omega)
    · exact s.serial_inj i j d e hi hj hs

theorem getElem?_vacated {s : EdgeStore} {i j : Nat} {e : StoredEdge} (h : s.slot? i = some e) :
    (s.slots.setIfInBounds i none)[j]? = if j = i then some none else s.slots[j]? := by
  have hlt : i < s.slots.size := (Array.getElem?_eq_some_iff.1 (slot?_eq_some_iff.1 h)).1
  simp [Array.getElem?_setIfInBounds, hlt, eq_comm]

/-- Drops the edge under an index, if there is one, and gives the index back. -/
def vacate (s : EdgeStore) (index : Nat) : EdgeStore :=
  match h : s.slot? index with
  | none => s
  | some _ => {
    slots := s.slots.setIfInBounds index none
    freed := index :: s.freed
    made := s.made
    nodup_freed := by
      refine List.nodup_cons.2 ⟨fun hi => ?_, s.nodup_freed⟩
      simp [slot?, s.vacant_of_freed index hi] at h
    vacant_of_freed := by
      intro i hi
      rw [getElem?_vacated h]
      split
      · rfl
      · rename_i hne
        exact s.vacant_of_freed i ((List.mem_cons.1 hi).resolve_left hne)
    serial_le := by
      intro i e hi
      rw [getElem?_vacated h] at hi
      split at hi
      · simp at hi
      · exact s.serial_le i e hi
    serial_inj := by
      intro i j d e hi hj
      rw [getElem?_vacated h] at hi hj
      split at hi <;> split at hj
      · simp at hi
      · simp at hi
      · simp at hj
      · exact s.serial_inj i j d e hi hj }

/-- Drops every edge from `source` to `target` of the type asked for. The newest goes first, so that the index of the
oldest is used again first. -/
def remove (s : EdgeStore) (source target : NodeRef) (type : Option EdgeType) : EdgeStore :=
  (s.between source target type).foldr (fun e s => s.vacate e.index) s

end EdgeStore

end Tierwise
