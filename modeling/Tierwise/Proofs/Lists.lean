import Mathlib.Algebra.BigOperators.Group.List.Lemmas
import Mathlib.Algebra.GroupWithZero.Nat
import Mathlib.Data.List.Forall2
import Mathlib.Data.Set.Card

/-! # Repetitions, counts and ranges

What walks and reports need of lists, whatever is listed. A walk drops the repetitions of a list and keeps what comes
first, a report counts by value, and nodes are listed by their numbers.
-/

namespace List

variable {α β : Type}

/-! ### Repetitions -/

theorem nodup_eraseDups [DecidableEq α] (l : List α) : l.eraseDups.Nodup := by
  cases l with
  | nil => simp
  | cons a rest =>
    rw [eraseDups_cons, nodup_cons]
    constructor
    · simp [mem_eraseDups]
    · exact nodup_eraseDups (rest.filter fun b => !b == a)
termination_by l.length
decreasing_by exact Nat.lt_succ_of_le (length_filter_le _ _)

theorem eraseDups_flatMap_of_forall_eq [BEq β] [LawfulBEq β] {f : α → List β} {xs : List α} {a : α}
    (hne : xs ≠ []) (hall : ∀ x ∈ xs, x = a) : (xs.flatMap f).eraseDups = (f a).eraseDups := by
  cases xs with
  | nil => exact absurd rfl hne
  | cons x rest =>
    obtain ⟨rfl, hrest⟩ := forall_mem_cons.1 hall
    have hold : (rest.flatMap f).removeAll (f x) = [] := by
      apply filter_eq_nil_iff.2
      intro b hb
      obtain ⟨y, hy, hb⟩ := mem_flatMap.1 hb
      rw [hrest y hy] at hb
      simpa using hb
    rw [flatMap_cons, eraseDups_append, hold, eraseDups_nil, append_nil]

/-! ### Counts -/

theorem Nodup.ncard_eq_length [DecidableEq α] {s : Set α} {l : List α} (hl : l.Nodup) (h : ∀ a, a ∈ l ↔ a ∈ s) :
    s.ncard = l.length := by
  have hs : s = ↑l.toFinset := by
    ext a
    simp [h]
  rw [hs, Set.ncard_coe_finset, toFinset_card_of_nodup hl]

theorem countP_eq_countP_add_countP {p q s : α → Bool} (l : List α) (h : ∀ a, (p a).toNat = (q a).toNat + (s a).toNat) :
    l.countP p = l.countP q + l.countP s := by
  induction l with
  | nil => rfl
  | cons a rest ih =>
    have ha := h a
    rw [countP_cons, countP_cons, countP_cons, ih]
    cases hp : p a <;> cases hq : q a <;> cases hs : s a <;> simp [hp, hq, hs] at ha ⊢ <;> omega

/-- Items are counted value by value, and those without a value by themselves. -/
theorem length_eq_sum_count_add_count_none [DecidableEq α] (l : List (Option α)) :
    l.length = ((l.filterMap fun a => a).eraseDups.map fun a => l.count (some a)).sum + l.count none := by
  have hcount : ∀ a, l.count (some a) = (l.filterMap fun a => a).count a := fun a => count_filterMap.symm
  have hperm : (l.filterMap fun a => a).eraseDups.Perm (l.filterMap fun a => a).dedup := by
    rw [perm_ext_iff_of_nodup (nodup_eraseDups _) (nodup_dedup _)]
    intro a
    rw [mem_eraseDups, mem_dedup]
  have hnone : l.countP (fun a => ¬ a.isSome = true) = l.count none := by
    apply countP_congr
    intro a _
    cases a <;> simp
  calc l.length = l.countP Option.isSome + l.countP (fun a => ¬ a.isSome = true) :=
        length_eq_countP_add_countP Option.isSome
    _ = (l.filterMap fun a => a).length + l.count none := by rw [length_filterMap_eq_countP, hnone]
    _ = ((l.filterMap fun a => a).dedup.map fun a => (l.filterMap fun a => a).count a).sum + l.count none := by
        rw [sum_map_count_dedup_eq_length]
    _ = ((l.filterMap fun a => a).eraseDups.map fun a => l.count (some a)).sum + l.count none := by
        simp only [hcount, (hperm.map _).sum_eq]

/-! ### Ranges -/

theorem filterMap_getElem?_range (l : List α) : (range l.length).filterMap (l[·]?) = l := by
  induction l with
  | nil => rfl
  | cons a rest ih => simpa [range_succ_eq_map, filterMap_map, Function.comp_def] using ih

/-- The numbers before and after one of them. -/
theorem exists_range_eq {n size : Nat} (hn : n < size) :
    ∃ below above, range size = below ++ n :: above ∧ (∀ m ∈ below, m < n) ∧ ∀ m ∈ above, n < m := by
  obtain ⟨below, above, hrange⟩ := append_of_mem (mem_range.2 hn)
  have hordered : (below ++ n :: above).Pairwise (· < ·) := by
    rw [← hrange]
    exact pairwise_lt_range
  rw [pairwise_append, pairwise_cons] at hordered
  exact ⟨below, above, hrange, fun m hm => hordered.2.2 m hm n mem_cons_self, hordered.2.1.1⟩

theorem count_flatMap_replicate (d m i : Nat) : ((range m).flatMap (replicate d)).count i = if i < m then d else 0 := by
  induction m with
  | zero => simp
  | succ m ih =>
    rw [range_succ, flatMap_append, flatMap_singleton, count_append, ih, count_replicate]
    grind

end List
