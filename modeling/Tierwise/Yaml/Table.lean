import Tierwise.Yaml.Document

/-! # The rows of a document with its aliases put in -/

namespace Tierwise.Yaml

/-- Rows in the order of the text. A key may come twice. -/
abbrev Rows (α : Type) := List (List Char × α)

inductive Field where
  | scalar (s : Scalar)
  | table (rows : Rows Scalar)
deriving DecidableEq, Repr, Inhabited

/-- Anchors met so far. An anchor is known by a number, the count of names known before it. Naming an anchor again does
not add to that count, so a later anchor may take over the number, and with it the aliases that go by it. -/
structure Anchors where
  numbers : List (List Char × Nat) := []
  /-- What each number stands for, the last one first. A table is no scalar. -/
  targets : List (Nat × Option Scalar) := []
deriving DecidableEq, Repr, Inhabited

namespace Anchors

def add (a : Anchors) (name : List Char) (target : Option Scalar) : Anchors :=
  let number := a.numbers.length
  { numbers := (name, number) :: a.numbers.filter (·.1 != name), targets := (number, target) :: a.targets }

def addIf (a : Anchors) (name : Option (List Char)) (target : Option Scalar) : Anchors :=
  name.elim a fun name => a.add name target

def scalar? (a : Anchors) (number : Nat) : Option Scalar := (a.targets.lookup number).join

end Anchors

/-- A scalar, or the number of an anchor. -/
inductive Item where
  | number (n : Nat)
  | scalar (s : Scalar)
deriving DecidableEq, Repr, Inhabited

def Item.scalar? (a : Anchors) : Item → Option Scalar
  | number n => a.scalar? n
  | scalar s => some s

/-- A pass over a document that numbers its anchors. An alias needs an anchor before it. -/
abbrev Numbering := StateT Anchors Option

def Atom.item : Atom → Numbering Item
  | aliasOf name => fun a => (a.numbers.lookup name).map fun n => (.number n, a)
  | scalar anchor s => fun a => some (.scalar s, a.addIf anchor (some s))

/-- The table under an anchor is known before its rows. -/
def openTable (anchor : Option (List Char)) : Numbering Unit := fun a => some ((), a.addIf anchor none)

def innerItems (rows : List (Atom × Atom)) : Numbering (List (Item × Item)) :=
  rows.mapM fun row => do
    let key ← row.1.item
    let value ← row.2.item
    return (key, value)

def Entry.items : Entry → Numbering (Item ⊕ List (Item × Item))
  | atom a => Sum.inl <$> a.item
  | table anchor rows => do
    openTable anchor
    Sum.inr <$> innerItems rows

def Document.items (d : Document) : Numbering (List (Item × (Item ⊕ List (Item × Item)))) := do
  openTable d.anchor
  d.rows.mapM fun row => do
    let key ← row.1.item
    let value ← row.2.items
    return (key, value)

def innerRow? (a : Anchors) (row : Item × Item) : Option (List Char × Scalar) := do
  let key ← row.1.scalar? a
  let value ← row.2.scalar? a
  return (key.text, value)

def field? (a : Anchors) : Item ⊕ List (Item × Item) → Option Field
  | .inl item => (item.scalar? a).map .scalar
  | .inr rows => (rows.mapM (innerRow? a)).map .table

/-- The rows of a document. All anchors are known before the aliases are put in. -/
def Document.rows? (d : Document) : Option (Rows Field) := do
  let (items, a) ← d.items {}
  items.mapM fun row => do
    let key ← row.1.scalar? a
    let value ← field? a row.2
    return (key.text, value)

end Tierwise.Yaml
