import Tierwise.Yaml.Cursor

/-! # What stands between two words of a scalar, and how it reads -/

namespace Tierwise.Yaml

/-- Blanks, or breaks with the blanks around them lost. Both are kept with the last one first. -/
inductive Gap where
  | inline (blanks : List Char)
  /-- The first break is missing where it was escaped. -/
  | broken (first : Option Char) (more : List Char)
deriving DecidableEq, Repr, Inhabited

namespace Gap

def empty : Gap := inline []

def isEmpty (g : Gap) : Bool := g == empty

def isBroken : Gap → Bool
  | inline _ => false
  | broken _ _ => true

def add (c : Char) : Gap → Gap
  | inline blanks => if isBreak c then broken (some c) [] else inline (c :: blanks)
  | broken first more => broken first (if isBreak c then c :: more else more)

/-- One common break reads as a space, and of several the first is lost. -/
def text : Gap → List Char
  | inline blanks => blanks.reverse
  | broken first more =>
    if first == some '\n' then (if more.isEmpty then [' '] else more.reverse) else first.toList ++ more.reverse

end Gap

end Tierwise.Yaml
