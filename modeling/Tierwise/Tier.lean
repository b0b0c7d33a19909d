/-! # Tiers, the tags that slice roots carry, and what a classification can answer -/

namespace Tierwise

/-- The side of a split program on which a node runs. -/
inductive Tier where
  | client
  | server
  | shared
deriving DecidableEq, Repr, Inhabited

namespace Tier

def all : List Tier := [client, server, shared]

def name : Tier → String
  | client => "client"
  | server => "server"
  | shared => "shared"

/-- Names are matched exactly, letter case included. -/
def ofName? (s : String) : Option Tier :=
  all.find? (·.name == s)

theorem ofName?_name (t : Tier) : ofName? t.name = some t := by
  cases t <;> decide

end Tier

/-- The label of a slice root. A tier and a free name of the same spelling are different tags. -/
inductive Tag where
  | tier (t : Tier)
  | named (text : String)
deriving DecidableEq, Repr, Inhabited

namespace Tag

def text : Tag → String
  | tier t => t.name
  | named s => s

/-- The name of a tier denotes that tier, any other text is a free name. -/
def ofText (s : String) : Tag :=
  match Tier.ofName? s with
  | some t => tier t
  | none => named s

/-- The tag that stands in where no slice root was found. -/
def shared : Tag := tier .shared

theorem ofText_name (t : Tier) : ofText t.name = tier t := by
  simp [ofText, Tier.ofName?_name]

end Tag

/-- What the search for a slice root tells about a node. -/
inductive Resolution where
  /-- A slice root carries this tag. -/
  | declared (tag : Tag)
  /-- There is something above the node, but no slice root ends the search. -/
  | undetermined
  /-- Nothing is above the node. -/
  | unset
deriving DecidableEq, Repr, Inhabited

namespace Resolution

/-- The tag to work with: an undetermined node counts as shared. -/
def tag? : Resolution → Option Tag
  | declared t => some t
  | undetermined => some Tag.shared
  | unset => none

def isDeclared : Resolution → Bool
  | declared _ => true
  | _ => false

end Resolution

/-- How many values a call site hands back. -/
inductive Arity where
  | one
  | all
deriving DecidableEq, Repr, Inhabited

namespace Arity

def name : Arity → String
  | one => "one"
  | all => "all"

def ofName? (s : String) : Option Arity :=
  [one, all].find? (·.name == s)

def code : Arity → Nat
  | one => 0
  | all => 1

theorem ofName?_name (a : Arity) : ofName? a.name = some a := by
  cases a <;> decide

end Arity

/-- The way a value takes through a parameter: into the callee or back out of it. -/
inductive Flow where
  | inward
  | outward
deriving DecidableEq, Repr, Inhabited

namespace Flow

def suffix : Flow → String
  | inward => "in"
  | outward => "out"

def ofSuffix? (s : String) : Option Flow :=
  [inward, outward].find? (·.suffix == s)

def name : Flow → String
  | inward => "In"
  | outward => "Out"

def ofName? (s : String) : Option Flow :=
  [inward, outward].find? (·.name == s)

def sign : Flow → Int
  | inward => 1
  | outward => -1

end Flow

end Tierwise
