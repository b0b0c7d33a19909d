import Tierwise.Node

/-! # What an id says about its node

The digits of an id are the creation number, except for a slice root, whose id is told from the others by its first
letter. So two nodes with different creation numbers have the same id only if both are slice roots and their tags are
spelled the same.
-/

namespace Tierwise

namespace NodeKind

theorem filter_isDigit_toDigits (n : Nat) : (Nat.toDigits 10 n).filter Char.isDigit = Nat.toDigits 10 n := by
  apply List.filter_eq_self.2
  intro c hc
  exact Nat.isDigit_of_mem_toDigits (by decide) (by decide) hc

/-- The digits of an id spell the creation number, unless the tag of a slice root stands in its place. -/
theorem filter_isDigit_id {kind : NodeKind} (hkind : ∀ mark, kind ≠ .slice mark) (serial : Nat) :
    (kind.id serial).toList.filter Char.isDigit = Nat.toDigits 10 serial := by
  have hdigits := filter_isDigit_toDigits serial
  cases kind with
  | formal flow | actual flow =>
    cases flow <;> simp [id, Nat.toString_eq_repr, Nat.toList_repr, hdigits, Flow.suffix, List.filter]
  | slice mark => exact absurd rfl (hkind mark)
  | entry | objectEntry | call | statement | exit => simp [id, Nat.toString_eq_repr, Nat.toList_repr, hdigits]

theorem serial_eq_of_id_eq {j k : NodeKind} {m n : Nat} (hj : ∀ mark, j ≠ .slice mark) (hk : ∀ mark, k ≠ .slice mark)
    (h : j.id m = k.id n) : m = n := by
  have hdigits : Nat.toDigits 10 m = Nat.toDigits 10 n := by
    rw [← filter_isDigit_id hj, ← filter_isDigit_id hk, h]
  calc m = Nat.ofDigitChars 10 (Nat.toDigits 10 m) 0 := Nat.ofDigitChars_ten_toDigits.symm
    _ = Nat.ofDigitChars 10 (Nat.toDigits 10 n) 0 := by rw [hdigits]
    _ = n := Nat.ofDigitChars_ten_toDigits

/-- Only the ids of slice roots begin with the letter C. -/
theorem exists_mark_of_id_eq {kind : NodeKind} {serial : Nat} {rest : String} (h : kind.id serial = "C" ++ rest) :
    ∃ mark, kind = .slice mark ∧ mark.tag.text = rest := by
  have hhead : (kind.id serial).toList.head? = some 'C' := by simp [h]
  cases kind with
  | slice mark => exact ⟨mark, rfl, (String.append_right_inj "C").1 h⟩
  | entry | objectEntry | call | statement | formal | actual | exit => simp [id] at hhead

/-- Ids of nodes made at different times agree only between slice roots that are spelled the same. -/
theorem eq_or_slice_of_id_eq {j k : NodeKind} {m n : Nat} (h : j.id m = k.id n) :
    m = n ∨ ∃ mark, k = .slice mark ∧ j.id m = "C" ++ mark.tag.text := by
  by_cases hk : ∃ mark, k = .slice mark
  · obtain ⟨mark, rfl⟩ := hk
    exact .inr ⟨mark, rfl, h⟩
  · apply Or.inl
    have hk' : ∀ mark, k ≠ .slice mark := fun mark he => hk ⟨mark, he⟩
    apply serial_eq_of_id_eq _ hk' h
    rintro mark rfl
    obtain ⟨mark', he, -⟩ := exists_mark_of_id_eq h.symm
    exact hk' mark' he

end NodeKind

end Tierwise
