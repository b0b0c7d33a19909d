import Tierwise.Query

/-! # Reachability over edges of every type -/

namespace Tierwise

inductive Reach where
  | found
  | exhausted
  /-- Edges were left when the limit was hit. -/
  | limited
deriving DecidableEq, Repr, Inhabited

namespace Reach

/-- Follows at most `limit` edges, each once. -/
def run (g : Graph) (target : NodeRef) : (limit : Nat) → (queue : List Edge) → (queued : List Nat) → Reach
  | 0, queue, _ => if queue.isEmpty then exhausted else limited
  | limit + 1, queue, queued =>
    match queue with
    | [] => exhausted
    | e :: rest =>
      if e.target == target then found
      else
        let more := (g.outEdges e.target).filter fun f => !queued.contains f.index
        run g target limit (rest ++ more) (queued ++ more.map Edge.index)

end Reach

namespace Graph

def reach (g : Graph) (source target : NodeRef) : Reach :=
  let first := g.outEdges source
  Reach.run g target g.worklistLimit first (first.map Edge.index)

/-- A path of at least one edge leads from `source` to `target`, as far as the limit lets us see. -/
def pathExists (g : Graph) (source target : NodeRef) : Bool := g.reach source target == .found

end Graph

def Query.pathExists (source target : NodeRef) : Query Bool := do
  let g ← graph
  let r := g.reach source target
  warnIf (r == .limited) (.reachLimit (g.idOf source) g.worklistLimit)
  return r == .found

theorem Query.value_pathExists (source target : NodeRef) (g : Graph) :
    (Query.pathExists source target g).value = g.pathExists source target := rfl

end Tierwise
