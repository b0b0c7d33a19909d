import Tierwise.Yaml.Gap

/-! # Scalars without quotes

Where one may start, and how far it goes in block and in flow style.
-/

namespace Tierwise.Yaml

def isFlowMark (c : Char) : Bool := [',', '[', ']', '\x7b', '\x7d'].contains c

/-- Characters that mean something at the start of a token. -/
def isIndicator (c : Char) : Bool :=
  isFlowMark c ||
    ['-', '?', ':', '#', '&', '*', '!', '|', '>', '\x27', '\x22', '%', '@', '\x60'].contains c

def plainStarts (flow : Bool) : List Char → Bool
  | [] => false
  | c :: r =>
    !(isSpace c || isIndicator c) || (c == '-' && !wordEnds r) || (!flow && (c == '?' || c == ':') && !wordEnds r)

/-- A colon that touches such a character is refused in flow style. -/
def touchesMark : List Char → Bool
  | [] => false
  | c :: _ => isFlowMark c || c == '?'

structure Plain where
  text : List Char
  /-- A line break was passed after the last word. -/
  broken : Bool
  cursor : Cursor
deriving DecidableEq, Repr, Inhabited

/-- Reads on from inside a plain scalar. It ends before a comment, a colon that ends a word, a line that parts
documents, in flow style at a flow mark, and in block style at a line whose text starts left of column `floor`. A tab
left of there is refused. -/
def plain? (flow : Bool) (floor : Nat) : Gap → Mark → List Char → Option Plain
  | gap, m, [] => some ⟨[], gap.isBroken, ⟨m, []⟩⟩
  | gap, m, c :: r =>
    if isSpace c then
      if c == '\t' && gap.isBroken && m.column < floor then none
      else plain? flow floor (gap.add c) (m.past c) r
    else if !gap.isEmpty && (c == '#' || parts m (c :: r) || (!flow && m.column < floor)) then
      some ⟨[], gap.isBroken, ⟨m, c :: r⟩⟩
    else if flow && c == ':' && touchesMark r then none
    else if (c == ':' && wordEnds r) || (flow && isFlowMark c) then some ⟨[], gap.isBroken, ⟨m, c :: r⟩⟩
    else
      (plain? flow floor .empty m.right r).map fun p => { p with text := gap.text ++ c :: p.text }

end Tierwise.Yaml
