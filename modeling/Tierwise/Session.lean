import Tierwise.Graph

/-! # A graph in use

Copies put aside, and others who hold the graph.
-/

namespace Tierwise

structure Session where
  graph : Graph
  /-- Copies put aside, the last one first. -/
  saved : List Graph := []
  /-- How many others hold the graph. -/
  holders : Nat := 0
deriving Repr, Inhabited

namespace Session

/-- Puts a copy aside and tells how many there are. -/
def save (s : Session) : Nat × Session :=
  (s.saved.length + 1, { s with saved := s.graph :: s.saved })

/-- Goes back to the copy put aside last, if there is one. -/
def restore (s : Session) : Bool × Session :=
  match s.saved with
  | [] => (false, s)
  | g :: rest => (true, { s with graph := g, saved := rest })

def share (s : Session) : Nat × Session := (s.holders + 1, { s with holders := s.holders + 1 })

def unshare (s : Session) : Bool × Session := (s.holders != 0, { s with holders := s.holders - 1 })

/-- The graph can be taken over only by its one holder. -/
def isSoleHolder (s : Session) : Bool := s.holders == 0

end Session

end Tierwise
