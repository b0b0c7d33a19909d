import Tierwise.Yaml.Cursor
import Tierwise.Yaml.Scalar

/-! # Scalars written as a block of lines below their mark -/

namespace Tierwise.Yaml

/-- What becomes of the breaks at the end of a block. -/
inductive Chomp where
  | clip
  | strip
  | keep
deriving DecidableEq, Repr, Inhabited

def Chomp.ofChar? : Char → Option Chomp
  | '-' => some strip
  | '+' => some keep
  | _ => none

structure BlockHeader where
  chomp : Chomp := .clip
  /-- How much deeper than its surroundings the block lies, if that is said. -/
  deeper : Option Nat := none
deriving DecidableEq, Repr, Inhabited

/-- A digit that says how deep a block lies. Zero says nothing. -/
def depth? (c : Char) : Option Nat := (digit? 10 c).filter (· != 0)

/-- The header after the mark: a chomping sign and a depth, both optional, in any order. A zero is left for the rest of
the line, where nothing may stand. -/
def blockHeader (c : Cursor) : BlockHeader × Cursor :=
  match c.rest with
  | [] => ({}, c)
  | a :: r =>
    let b := r.head?
    match Chomp.ofChar? a, depth? a with
    | some chomp, _ =>
      match b.bind depth? with
      | some n => (⟨chomp, some n⟩, c.skip 2)
      | none => (⟨chomp, none⟩, c.skip)
    | none, some n =>
      match b.bind Chomp.ofChar? with
      | some chomp => (⟨chomp, some n⟩, c.skip 2)
      | none => (⟨.clip, some n⟩, c.skip)
    | none, none => ({}, c)

/-- Empty lines in front of a block: the deepest column seen, the breaks with the last one first, and the place of the
first text. Without a known `indent` every space counts as indentation. A tab in the indentation is refused. -/
def leadingLines? (indent : Option Nat) : (deepest : Nat) → (breaks : List Char) → Mark → List Char →
    Option (Nat × List Char × Cursor)
  | deepest, breaks, m, [] => some (max deepest m.column, breaks, ⟨m, []⟩)
  | deepest, breaks, m, c :: r =>
    let inside := indent.all (m.column < ·)
    if c == ' ' && inside then leadingLines? indent deepest breaks m.right r
    else if c == '\t' && inside then none
    else if isBreak c then leadingLines? indent (max deepest m.column) (c :: breaks) m.down r
    else some (max deepest m.column, breaks, ⟨m, c :: r⟩)

structure BlockGap where
  /-- The break that ended the last line, if there was one. -/
  first : Option Char
  /-- The breaks of empty lines, the last one first. -/
  more : List Char
  /-- The last line started with a blank. -/
  afterBlank : Bool
deriving DecidableEq, Repr, Inhabited

/-- In a folded block one common break between two lines that start with text reads as a space, and of several the
first is lost. -/
def BlockGap.text (g : BlockGap) (fold beforeBlank : Bool) : List Char :=
  if fold && g.first == some '\n' && !g.afterBlank && !beforeBlank then
    if g.more.isEmpty then [' '] else g.more.reverse
  else
    g.first.toList ++ g.more.reverse

/-- The place inside a block: in a line that does or does not start with a blank, or between lines. -/
inductive BlockPlace where
  | inLine (startsBlank : Bool)
  | between (gap : BlockGap)
deriving DecidableEq, Repr, Inhabited

/-- The lines of a block that lies at column `indent`, and the gap after the last one. -/
def blockLines? (fold : Bool) (indent : Nat) : BlockPlace → Mark → List Char → Option (List Char × BlockGap × Cursor)
  | .inLine blank, m, [] => some ([], ⟨none, [], blank⟩, ⟨m, []⟩)
  | .between gap, m, [] => some ([], gap, ⟨m, []⟩)
  | .inLine blank, m, c :: r =>
    if isBreak c then blockLines? fold indent (.between ⟨some c, [], blank⟩) m.down r
    else (blockLines? fold indent (.inLine blank) m.right r).map fun p => (c :: p.1, p.2)
  | .between gap, m, c :: r =>
    if c == ' ' && m.column < indent then blockLines? fold indent (.between gap) m.right r
    else if c == '\t' && m.column < indent then none
    else if isBreak c then blockLines? fold indent (.between { gap with more := c :: gap.more }) m.down r
    else if m.column == indent then
      (blockLines? fold indent (.inLine (isBlank c)) m.right r).map fun p =>
        (gap.text fold (isBlank c) ++ c :: p.1, p.2)
    else
      some ([], gap, ⟨m, c :: r⟩)

def Chomp.tail (chomp : Chomp) (gap : BlockGap) : List Char :=
  match chomp with
  | strip => []
  | clip => gap.first.toList
  | keep => gap.first.toList ++ gap.more.reverse

/-- The text of a block after its mark. Content starts at column `floor` or deeper. -/
def block? (fold : Bool) (floor : Nat) (c : Cursor) : Option (List Char × Cursor) := do
  let (header, c) := blockHeader c
  let c ← c.endLine?
  let given := header.deeper.map (floor - 1 + ·)
  let (deepest, breaks, c) ← leadingLines? given 0 [] c.mark c.rest
  let indent := given.getD (max (max deepest floor) 1)
  let (text, gap, c) ← blockLines? fold indent (.between ⟨none, breaks, false⟩) c.mark c.rest
  return (text ++ header.chomp.tail gap, c)

end Tierwise.Yaml
