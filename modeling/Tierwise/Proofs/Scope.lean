import Tierwise.Proofs.Edit
import Tierwise.Proofs.Walk

/-! # Enclosing scopes are nearest ones

Both lookups take the first node that suits them from one list, the nodes above in the order of a walk, and so what they
find is a nearest one. The node itself is never found, even if control edges lead back to it.
-/

namespace Tierwise.Graph

variable {g : Graph} {n a o : NodeRef} {before after : List NodeRef} {p : NodeRef → Prop}

/-- Control edges, `k` of them and taken from target to source, lead from `n` to `a`. -/
def Above (g : Graph) (k : Nat) (n a : NodeRef) : Prop := (g.arcsBack .control).Path [] k n a

/-- A node other than `n`, above it, of which `p` holds. No other such node is fewer edges away. -/
def NearestAbove (g : Graph) (p : NodeRef → Prop) (n a : NodeRef) : Prop :=
  a ≠ n ∧ p a ∧ ∃ k, g.Above k n a ∧ ∀ b j, b ≠ n → p b → g.Above j n b → k ≤ j

theorem mem_above : a ∈ g.above n ↔ a ≠ n ∧ ∃ k, g.Above k n a := Arcs.mem_beyond

theorem exists_mem_above_iff : (∃ a ∈ g.above n, p a) ↔ ∃ a k, a ≠ n ∧ p a ∧ g.Above k n a := by
  constructor
  · rintro ⟨a, ha, hp⟩
    obtain ⟨hne, k, hk⟩ := mem_above.1 ha
    exact ⟨a, k, hne, hp, hk⟩
  · rintro ⟨a, k, hne, hp, hk⟩
    exact ⟨a, mem_above.2 ⟨hne, k, hk⟩, hp⟩

/-- The first node of which `p` holds is a nearest one. -/
theorem nearestAbove_of_first (h : g.above n = before ++ a :: after) (ha : p a) (hbefore : ∀ b ∈ before, ¬p b) :
    g.NearestAbove p n a := by
  have hmem : a ∈ g.above n := by simp [h]
  obtain ⟨k, hk, hmin⟩ := Arcs.beyond_nearest h
  refine ⟨(mem_above.1 hmem).1, ha, k, hk, fun b j hb hpb hj => ?_⟩
  exact hmin b j hb (fun hmem => hbefore b hmem hpb) hj

/-! ### Entries -/

theorem nearestAbove_of_enclosingEntry {e : NodeRef} (h : g.enclosingEntry n = some e) :
    g.NearestAbove (fun a => g.holds Node.isEntry a = true) n e := by
  obtain ⟨hentry, before, after, habove, hbefore⟩ := List.find?_eq_some_iff_append.1 h
  apply nearestAbove_of_first habove hentry
  simpa using hbefore

theorem enclosingEntry_eq_none_iff :
    g.enclosingEntry n = none ↔ ¬∃ e k, e ≠ n ∧ g.holds Node.isEntry e = true ∧ g.Above k n e := by
  rw [enclosingEntry, List.find?_eq_none, ← exists_mem_above_iff]
  simp

/-! ### Object entries -/

/-- The object entry that the syntax of a node links to. -/
def objectLink? (g : Graph) (a : NodeRef) : Option NodeRef :=
  (g.node? a).bind fun node => node.construct.bind Construct.objectEntry

/-- The node is flagged as the root of an object entry, or its syntax links to one. -/
def ShowsObject (g : Graph) (a : NodeRef) : Prop := g.holds Node.isObjectRoot a = true ∨ (g.objectLink? a).isSome

theorem objectEntryAt_eq (g : Graph) (a : NodeRef) :
    g.objectEntryAt a = if g.holds Node.isObjectRoot a then some a else g.objectLink? a := by
  unfold objectEntryAt objectLink? holds
  cases g.node? a with
  | none => rfl
  | some node => rfl

theorem isSome_objectEntryAt : (g.objectEntryAt a).isSome ↔ g.ShowsObject a := by
  rw [ShowsObject, objectEntryAt_eq]
  by_cases hroot : g.holds Node.isObjectRoot a = true
  · simp [hroot]
  · simp [hroot]

theorem nearestAbove_of_enclosingObjectEntry (h : g.enclosingObjectEntry n = some o) :
    ∃ a, g.NearestAbove g.ShowsObject n a ∧ g.objectEntryAt a = some o := by
  obtain ⟨before, a, after, habove, ha, hbefore⟩ := List.findSome?_eq_some_iff.1 h
  refine ⟨a, nearestAbove_of_first habove ?_ fun b hb => ?_, ha⟩
  · rw [← isSome_objectEntryAt, ha]
    rfl
  · rw [← isSome_objectEntryAt, hbefore b hb]
    exact Bool.false_ne_true

theorem enclosingObjectEntry_eq_none_iff :
    g.enclosingObjectEntry n = none ↔ ¬∃ a k, a ≠ n ∧ g.ShowsObject a ∧ g.Above k n a := by
  rw [enclosingObjectEntry, List.findSome?_eq_none_iff, ← exists_mem_above_iff]
  simp [← isSome_objectEntryAt]

/-- An enclosing entry is a nearest entry above the node, and there is none only if no entry is above. An enclosing object
entry comes from a nearest node above that is flagged or linked: it is that node if it is flagged, else what it links to,
and there is none only if no such node is above. -/
theorem enclosing_scopes_nearest (g : Graph) (n : NodeRef) :
    (∀ e, g.enclosingEntry n = some e → g.NearestAbove (fun a => g.holds Node.isEntry a = true) n e) ∧
    (g.enclosingEntry n = none ↔ ¬∃ e k, e ≠ n ∧ g.holds Node.isEntry e = true ∧ g.Above k n e) ∧
    (∀ o, g.enclosingObjectEntry n = some o → ∃ a, g.NearestAbove g.ShowsObject n a ∧
      some o = if g.holds Node.isObjectRoot a then some a else g.objectLink? a) ∧
    (g.enclosingObjectEntry n = none ↔ ¬∃ a k, a ≠ n ∧ g.ShowsObject a ∧ g.Above k n a) := by
  refine ⟨fun e => nearestAbove_of_enclosingEntry, enclosingEntry_eq_none_iff, fun o ho => ?_,
    enclosingObjectEntry_eq_none_iff⟩
  obtain ⟨a, hnearest, ha⟩ := nearestAbove_of_enclosingObjectEntry ho
  exact ⟨a, hnearest, by rw [← objectEntryAt_eq, ha]⟩

/-- Entry 5 and statement 6 control each other. Entry 3 is two edges above entry 5, and so is statement 2, which links to
object entry 1. Entry 0 is three edges above, and it is flagged. -/
def innerFunction : Graph :=
  let statement := Edit.addStatement none
  let object : Construct := { id := 1, kind := .objectExpression, objectEntry := some 1 }
  let nodes := [Edit.addEntry none, .addObjectEntry none, .addStatement (some object), .addEntry none, statement,
    .addEntry none, statement]
  let arcs := [(6, 5), (4, 5), (5, 6), (3, 6), (2, 4), (2, 4), (0, 2), (4, 3)]
  Edit.applyAll empty (nodes ++ .markObjectRoot 0 :: arcs.map fun a => .addEdge a.1 a.2 .control none)

theorem enclosing_scopes_nearest_innerFunction :
    innerFunction.Attained ∧ innerFunction.enclosingEntry 5 = some 3 ∧
      innerFunction.NearestAbove (fun a => innerFunction.holds Node.isEntry a = true) 5 3 ∧
      innerFunction.enclosingObjectEntry 5 = some 1 ∧
      (∃ a, innerFunction.NearestAbove innerFunction.ShowsObject 5 a ∧
        some 1 = if innerFunction.holds Node.isObjectRoot a then some a else innerFunction.objectLink? a) ∧
      ¬∃ e k, e ≠ 0 ∧ innerFunction.holds Node.isEntry e = true ∧ innerFunction.Above k 0 e := by
  have hentry : innerFunction.enclosingEntry 5 = some 3 := by decide +kernel
  have hobject : innerFunction.enclosingObjectEntry 5 = some 1 := by decide +kernel
  have houter : innerFunction.enclosingEntry 0 = none := by decide +kernel
  obtain ⟨hnearest, -, hshows, -⟩ := enclosing_scopes_nearest innerFunction 5
  refine ⟨Attained.empty.applyAll (by decide), hentry, hnearest 3 hentry, hobject, hshows 1 hobject, ?_⟩
  exact (enclosing_scopes_nearest innerFunction 0).2.1.1 houter

end Tierwise.Graph
