/-! # First in, first out -/

namespace Tierwise

/-- Items leave at the front. Those added last are kept in reverse. -/
structure Queue (α : Type) where
  front : List α
  back : List α
deriving Repr, Inhabited

namespace Queue

variable {α : Type}

def ofList (xs : List α) : Queue α := ⟨xs, []⟩

/-- The items in the order in which they leave. -/
def toList (q : Queue α) : List α := q.front ++ q.back.reverse

def append (q : Queue α) (xs : List α) : Queue α := ⟨q.front, xs.reverse ++ q.back⟩

def pop? (q : Queue α) : Option (α × Queue α) :=
  match q.front with
  | x :: rest => some (x, ⟨rest, q.back⟩)
  | [] =>
    match q.back.reverse with
    | x :: rest => some (x, ⟨rest, []⟩)
    | [] => none

@[simp] theorem toList_ofList (xs : List α) : (ofList xs).toList = xs := by
  simp [ofList, toList]

@[simp] theorem toList_append (q : Queue α) (xs : List α) : (q.append xs).toList = q.toList ++ xs := by
  simp [append, toList]

theorem pop?_eq_none_iff (q : Queue α) : q.pop? = none ↔ q.toList = [] := by
  rcases q with ⟨_ | ⟨x, front⟩, back⟩
  · cases h : back.reverse <;> simp [pop?, toList, h]
  · simp [pop?, toList]

theorem toList_of_pop? {q rest : Queue α} {x : α} (h : q.pop? = some (x, rest)) : q.toList = x :: rest.toList := by
  rcases q with ⟨_ | ⟨y, front⟩, back⟩
  · cases hb : back.reverse <;> simp [pop?, hb] at h
    obtain ⟨rfl, rfl⟩ := h
    simp [toList, hb]
  · simp only [pop?, Option.some.injEq, Prod.mk.injEq] at h
    obtain ⟨rfl, rfl⟩ := h
    simp [toList]

theorem exists_pop?_of_toList {q : Queue α} {x : α} {xs : List α} (h : q.toList = x :: xs) :
    ∃ rest, q.pop? = some (x, rest) ∧ rest.toList = xs := by
  cases hpop : q.pop? with
  | none => simp [(pop?_eq_none_iff q).1 hpop] at h
  | some p =>
    obtain ⟨y, rest⟩ := p
    rw [toList_of_pop? hpop] at h
    obtain ⟨rfl, rfl⟩ := List.cons.inj h
    exact ⟨rest, rfl, rfl⟩

end Queue

end Tierwise
