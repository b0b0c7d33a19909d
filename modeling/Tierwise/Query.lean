import Tierwise.Graph
import Tierwise.Warning

/-! # Queries

They answer, may leave memos on the graph, and may warn.
-/

namespace Tierwise

structure Answer (α : Type) where
  value : α
  graph : Graph
  warnings : List Warning := []
deriving Repr

def Query (α : Type) : Type := Graph → Answer α

namespace Query

variable {α β : Type}

protected def pure (a : α) : Query α := fun g => { value := a, graph := g }

/-- The second query sees the memos of the first. -/
protected def bind (q : Query α) (f : α → Query β) : Query β := fun g =>
  let first := q g
  let second := f first.value first.graph
  { second with warnings := first.warnings ++ second.warnings }

instance : Monad Query where
  pure := Query.pure
  bind := Query.bind

@[simp] theorem pure_apply (a : α) (g : Graph) : (pure a : Query α) g = { value := a, graph := g } := rfl

@[simp] theorem bind_apply (q : Query α) (f : α → Query β) (g : Graph) :
    (q >>= f) g = { f (q g).value (q g).graph with
      warnings := (q g).warnings ++ (f (q g).value (q g).graph).warnings } := rfl

def graph : Query Graph := fun g => { value := g, graph := g }

def warn (w : Warning) : Query Unit := fun g => { value := (), graph := g, warnings := [w] }

def warnIf (c : Bool) (w : Warning) : Query Unit := if c then warn w else pure ()

def remember (n : NodeRef) (f : Memo → Memo) : Query Unit := fun g => { value := (), graph := g.modifyMemo n f }

/-- Changes the graph, or fails and leaves it alone. -/
def edit (f : Graph → Except GraphError Unit × Graph) : Query (Except GraphError Unit) := fun g =>
  { value := (f g).1, graph := (f g).2 }

def each (f : α → Query β) : List α → Query (List β)
  | [] => pure []
  | a :: rest => do
    let b ← f a
    let bs ← each f rest
    return b :: bs

@[simp] theorem graph_apply (g : Graph) : graph g = { value := g, graph := g } := rfl

@[simp] theorem graph_warnIf (c : Bool) (w : Warning) (g : Graph) : (warnIf c w g).graph = g := by
  cases c <;> rfl

@[simp] theorem warnings_warnIf (c : Bool) (w : Warning) (g : Graph) :
    (warnIf c w g).warnings = if c then [w] else [] := by
  cases c <;> rfl

@[simp] theorem remember_apply (n : NodeRef) (f : Memo → Memo) (g : Graph) :
    remember n f g = { value := (), graph := g.modifyMemo n f } := rfl

end Query

end Tierwise
