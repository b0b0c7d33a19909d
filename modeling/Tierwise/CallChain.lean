import Tierwise.Query

/-! # Climbing out of nested arguments

Calls may stand as arguments of other calls, and statements stand above the outermost one.
-/

namespace Tierwise

namespace Graph

/-- Actual parameters that the node stands in. -/
def argumentSlots (g : Graph) (n : NodeRef) : List NodeRef :=
  (g.inNodes n (some .control)).filter (g.holds Node.isActual)

/-- Calls that own the parameter. -/
def callsOf (g : Graph) (parameter : NodeRef) : List NodeRef :=
  (g.inNodes parameter (some .control)).filter (g.holds Node.isCall)

def callsUnder (g : Graph) (parameter : NodeRef) : List NodeRef :=
  (g.outNodes parameter (some .control)).filter (g.holds Node.isCall)

/-- One step out of nested arguments: from a node to the first call that owns its first slot. -/
def climb? (g : Graph) (n : NodeRef) : Option NodeRef :=
  (g.argumentSlots n).head?.bind fun slot => (g.callsOf slot).head?

/-- Climbs at most `limit` steps and never to a node in `seen`. After the last step no slot may be left. -/
def climbOut? (g : Graph) : (limit : Nat) → (seen : List NodeRef) → NodeRef → Option NodeRef
  | 0, _, n => if (g.argumentSlots n).isEmpty then some n else none
  | limit + 1, seen, n =>
    match g.climb? n with
    | none => some n
    | some up => if seen.contains up then none else g.climbOut? limit (up :: seen) up

/-- The call outside all the arguments that `call` is nested in. -/
def outermostCall (g : Graph) (call : NodeRef) : Except GraphError NodeRef :=
  match g.climbOut? g.callChainLimit [call] call with
  | some n => .ok n
  | none => .error (.callChain (g.idOf call) g.callChainLimit)

def outerCalls (g : Graph) (n : NodeRef) : List NodeRef := (g.argumentSlots n).flatMap g.callsOf

/-- Statements right above the node. A try statement anchors nothing. -/
def statementsAbove (g : Graph) (n : NodeRef) : List NodeRef :=
  (g.inNodes n (some .control)).filter (g.holds fun s => s.isStatement && !s.hasConstruct Construct.isTry)

/-- What a node that stands in no argument contributes: the statements above it, or itself. -/
def anchorsAt (g : Graph) (n : NodeRef) : List NodeRef :=
  if !(g.outerCalls n).isEmpty then []
  else if (g.statementsAbove n).isEmpty then [n]
  else g.statementsAbove n

end Graph

structure Anchors where
  nodes : List NodeRef
  /-- The climb was cut off, and the nodes it had reached are listed too. -/
  limited : Bool
deriving DecidableEq, Repr, Inhabited

/-- Climbs level by level until no call is left or `levels` are used up. -/
def Anchors.climb (g : Graph) : (levels : Nat) → (found frontier : List NodeRef) → Anchors
  | _, found, [] => ⟨found.eraseDups, false⟩
  | 0, found, frontier => ⟨(found ++ frontier).eraseDups, true⟩
  | levels + 1, found, frontier =>
    climb g levels (found ++ frontier.flatMap g.anchorsAt) (frontier.flatMap g.outerCalls)

@[simp] theorem Anchors.climb_nil (g : Graph) (levels : Nat) (found : List NodeRef) :
    climb g levels found [] = ⟨found.eraseDups, false⟩ := by
  cases levels <;> rfl

theorem Anchors.climb_succ {g : Graph} {levels : Nat} {found frontier : List NodeRef} (h : frontier ≠ []) :
    climb g (levels + 1) found frontier =
      climb g levels (found ++ frontier.flatMap g.anchorsAt) (frontier.flatMap g.outerCalls) := by
  cases frontier with
  | nil => exact absurd rfl h
  | cons n rest => rfl

/-- The statements that anchor a call, or a call that none anchors. -/
def Graph.anchors (g : Graph) (call : NodeRef) : Anchors :=
  Anchors.climb g (g.callChainLimit + 1) [] [call]

def Query.anchors (call : NodeRef) : Query (List NodeRef) := do
  let g ← graph
  let a := g.anchors call
  warnIf a.limited (.anchorLimit (g.idOf call) g.callChainLimit)
  return a.nodes

theorem Query.value_anchors (call : NodeRef) (g : Graph) : (Query.anchors call g).value = (g.anchors call).nodes := rfl

end Tierwise
