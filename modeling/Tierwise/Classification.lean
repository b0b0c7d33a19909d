import Tierwise.Provenance
import Tierwise.Query

/-! # Tags and tiers as queries

Answers are remembered on the node that was asked for.
-/

namespace Tierwise.Query

/-- Searches for a slice root and warns when the search gave up. -/
def trail (n : NodeRef) : Query Trail := do
  let g ← graph
  let t := g.provenance n
  warnIf t.limited (.provenanceLimit (g.idOf n) g.worklistLimit)
  return t

def sliceRootOf (n : NodeRef) : Query (Option NodeRef) := do
  let g ← graph
  if g.holds Node.isSlice n then return some n
  else return (← trail n).sliceRoot? g

def classify (n : NodeRef) : Query Resolution := do
  let g ← graph
  match g.sliceMark? n with
  | some mark => return .declared mark.tag
  | none => return (← trail n).resolution g

def tierOf (n : NodeRef) : Query (Option Tier) := do
  let g ← graph
  match g.sliceMark? n with
  | some mark => return mark.tier
  | none => return (← trail n).tier? g

@[simp] theorem value_trail (n : NodeRef) (g : Graph) : (trail n g).value = g.provenance n := rfl

@[simp] theorem graph_trail (n : NodeRef) (g : Graph) : (trail n g).graph = g := by
  simp [trail]

theorem value_sliceRootOf (n : NodeRef) (g : Graph) : (sliceRootOf n g).value = g.sliceRootOf n := by
  cases h : g.holds Node.isSlice n <;> simp [sliceRootOf, Graph.sliceRootOf, h]

theorem value_classify (n : NodeRef) (g : Graph) : (classify n g).value = g.classify n := by
  cases h : g.sliceMark? n <;> simp [classify, Graph.classify, h]

theorem graph_classify (n : NodeRef) (g : Graph) : (classify n g).graph = g := by
  cases h : g.sliceMark? n <;> simp [classify, h]

theorem value_tierOf (n : NodeRef) (g : Graph) : (tierOf n g).value = g.tierOf n := by
  cases h : g.sliceMark? n <;> simp [tierOf, Graph.tierOf, h]

theorem graph_tierOf (n : NodeRef) (g : Graph) : (tierOf n g).graph = g := by
  cases h : g.sliceMark? n <;> simp [tierOf, h]

/-- Keeps a declared tag on the node, and warns of an undetermined one if the settings ask for it. -/
def keepResolution (n : NodeRef) (r : Resolution) : Query Unit := do
  let g ← graph
  match r with
  | .declared tag => remember n fun m => { m with tag := some tag }
  | .undetermined => warnIf g.settings.warnOnUndetermined (.noSliceRoot (g.idOf n))
  | .unset => return ()

/-- Classification with memory. `recheck` passes over a remembered tag. A slice root always answers for itself. -/
def resolve (n : NodeRef) (recheck : Bool) : Query Resolution := do
  let g ← graph
  match g.sliceMark? n with
  | some mark => return .declared mark.tag
  | none =>
    match ((g.node? n).bind (·.memo.tag)).filter fun _ => !recheck with
    | some tag => return .declared tag
    | none =>
      let r := (← trail n).resolution g
      keepResolution n r
      return r

/-- The tag to work with: an undetermined node counts as shared. -/
def tag (n : NodeRef) (recheck : Bool := false) : Query (Option Tag) := do
  return (← resolve n recheck).tag?

/-- The tier with memory. That there is none is remembered too. -/
def tier (n : NodeRef) : Query (Option Tier) := do
  let g ← graph
  match (g.node? n).bind (·.memo.tier) with
  | some t => return t
  | none =>
    let t ← tierOf n
    remember n fun m => { m with tier := some t }
    return t

def isClient (n : NodeRef) : Query Bool := do return (← tier n) == some .client

def isServer (n : NodeRef) : Query Bool := do return (← tier n) == some .server

/-- No tier, no tag, or explicitly shared. -/
def isShared (n : NodeRef) : Query Bool := do
  let t ← tier n
  let f ← tag n
  return t.isNone || f.isNone || t == some .shared

/-- The same tag, or both shared. The second question is asked only where the first says no. -/
def sameTag (a b : NodeRef) : Query Bool := do
  let fa ← tag a
  let fb ← tag b
  if fa == fb then return true
  else if ← isShared a then isShared b
  else return false

/-- Both have a tier, and it is the same. -/
def sameTier (a b : NodeRef) : Query Bool := do
  let ta ← tier a
  let tb ← tier b
  return ta.isSome && ta == tb

end Tierwise.Query
