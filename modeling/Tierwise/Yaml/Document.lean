import Tierwise.Yaml.Token

/-! # A settings document

A table of scalars, and of tables of scalars one level down.
-/

namespace Tierwise.Yaml

/-- A scalar, or the name of one. -/
inductive Atom where
  | aliasOf (name : List Char)
  | scalar (anchor : Option (List Char)) (s : Scalar)
deriving DecidableEq, Repr, Inhabited

inductive Entry where
  | atom (a : Atom)
  | table (anchor : Option (List Char)) (rows : List (Atom × Atom))
deriving DecidableEq, Repr, Inhabited

structure Document where
  anchor : Option (List Char)
  /-- In the order of the text. A key may come twice. -/
  rows : List (Atom × Entry)
deriving DecidableEq, Repr, Inhabited

/-- What the handles of tags stand for. -/
abbrev Handles := List (List Char × List Char)

def standardHandles : Handles := [(['!'], ['!']), (['!', '!'], standardPrefix)]

/-- A reader of tokens: a value, and the tokens after it. -/
abbrev Reader (α : Type) := List Token → Option (α × List Token)

/-- What stands in front of a node. -/
structure Properties where
  anchor : Option (List Char) := none
  tag : Option (List Char) := none
deriving DecidableEq, Repr, Inhabited

def resolve? (handles : Handles) (name : TagName) : Option (List Char) :=
  if name.handle.isEmpty then some name.suffix else (handles.lookup name.handle).map (· ++ name.suffix)

/-- An anchor and a tag, in any order and both optional. -/
def properties? (handles : Handles) : Reader Properties
  | .anchor a :: .tag t :: r => (resolve? handles t).map fun tag => (⟨some a, some tag⟩, r)
  | .tag t :: .anchor a :: r => (resolve? handles t).map fun tag => (⟨some a, some tag⟩, r)
  | .anchor a :: r => some (⟨some a, none⟩, r)
  | .tag t :: r => (resolve? handles t).map fun tag => (⟨none, some tag⟩, r)
  | r => some ({}, r)

/-- A scalar after its properties. Properties alone make an empty scalar. -/
def scalar? (p : Properties) : Reader Atom
  | .scalar text style :: r => some (.scalar p.anchor ⟨text, style, p.tag⟩, r)
  | r => if p = {} then none else some (.scalar p.anchor ⟨[], .plain, p.tag⟩, r)

def atom? (handles : Handles) : Reader Atom
  | .aliasOf name :: r => some (.aliasOf name, r)
  | ts => (properties? handles ts).bind fun p => scalar? p.1 p.2

/-- The tokens go on with a part of a table in block style, so that a node was left out. -/
def blockGoesOn : List Token → Bool
  | .key :: _ | .value :: _ | .blockEnd :: _ => true
  | _ => false

/-- The same in flow style, in front of a value. -/
def flowGoesOn : List Token → Bool
  | .comma :: _ | .flowEnd :: _ => true
  | _ => false

def missing : Atom := .scalar none .missing

/-- A node in block style, which may be left out. -/
def blockNode? {α : Type} (absent : α) (node : Reader α) : Reader α := fun ts =>
  if blockGoesOn ts then some (absent, ts) else node ts

def blockValue? {α : Type} (absent : α) (node : Reader α) : Reader α
  | .value :: r => blockNode? absent node r
  | ts => some (absent, ts)

/-- The rows of a table in block style, up to its end. -/
def blockRows? {α : Type} (absent : α) (key : Reader Atom) (node : Reader α) : (fuel : Nat) → Reader (List (Atom × α))
  | 0, _ => none
  | _, .blockEnd :: r => some ([], r)
  | fuel + 1, .key :: r => do
    let (k, r) ← blockNode? missing key r
    let (v, r) ← blockValue? absent node r
    let (rows, r) ← blockRows? absent key node fuel r
    return ((k, v) :: rows, r)
  | _, _ => none

def flowValue? {α : Type} (absent : α) (node : Reader α) : Reader α
  | .value :: r => if flowGoesOn r then some (absent, r) else node r
  | ts => some (absent, ts)

/-- One row of a table in flow style. A key that no colon follows has no value. -/
def flowRow? {α : Type} (absent : α) (key : Reader Atom) (node : Reader α) : Reader (Atom × α)
  | .key :: r => do
    let (k, r) ← match r with
      | .value :: _ => some (missing, r)
      | _ => if flowGoesOn r then some (missing, r) else key r
    let (v, r) ← flowValue? absent node r
    return ((k, v), r)
  | ts => (key ts).map fun p => ((p.1, absent), p.2)

/-- The rows of a table in flow style, up to its end. A comma parts them, and one may follow the last. -/
def flowRows? {α : Type} (absent : α) (key : Reader Atom) (node : Reader α) : (fuel : Nat) → Reader (List (Atom × α))
  | 0, _ => none
  | _, .flowEnd :: r => some ([], r)
  | fuel + 1, ts => do
    let (row, r) ← flowRow? absent key node ts
    match r with
    | .comma :: r => (flowRows? absent key node fuel r).map fun p => (row :: p.1, p.2)
    | .flowEnd :: r => return ([row], r)
    | _ => none

/-- The rows of a table, in flow style and, where `block` allows it, in block style. -/
def rows? {α : Type} (block : Bool) (absent : α) (key : Reader Atom) (node : Bool → Reader α) :
    Reader (List (Atom × α))
  | .flowStart :: r => flowRows? absent key (node false) (r.length + 1) r
  | .blockStart :: r => if block then blockRows? absent key (node true) (r.length + 1) r else none
  | _ => none

def outerNode? (handles : Handles) (block : Bool) (ts : List Token) : Option (Entry × List Token) :=
  match ts with
  | .aliasOf name :: r => some (.atom (.aliasOf name), r)
  | _ =>
    (properties? handles ts).bind fun p =>
      match p.2 with
      | .flowStart :: _ | .blockStart :: _ =>
        (rows? block missing (atom? handles) (fun _ => atom? handles) p.2).map fun q =>
          (.table p.1.anchor q.1, q.2)
      | _ => (scalar? p.1 p.2).map fun q => (.atom q.1, q.2)

def outerTable? (handles : Handles) (ts : List Token) : Option (Document × List Token) :=
  (properties? handles ts).bind fun p =>
    (rows? true (.atom missing) (atom? handles) (outerNode? handles) p.2).map fun q => (⟨p.1.anchor, q.1⟩, q.2)

/-- The directives in front of a document, of which only one may name a version and none may name a handle again. -/
def directives? : (versioned : Bool) → Handles → Reader Handles
  | versioned, handles, .directive (.version major minor) :: r =>
    if versioned || major != 1 || !(minor == 1 || minor == 2) then none else directives? true handles r
  | versioned, handles, .directive (.tag name) :: r =>
    if (handles.lookup name.handle).isSome then none
    else directives? versioned (handles ++ [(name.handle, name.suffix)]) r
  | _, handles, ts => some (handles ++ standardHandles, ts)

/-- The table of a document, which its directives and a marker may precede. -/
def opening? : Reader Document
  | .directive d :: r => do
    let (handles, r) ← directives? false [] (.directive d :: r)
    match r with
    | .documentStart :: r => outerTable? handles r
    | _ => none
  | .documentStart :: r => outerTable? standardHandles r
  | ts => outerTable? standardHandles ts

/-- The one document of a text. Nothing follows it but markers that end documents. -/
def document? (text : List Char) : Option Document := do
  let (document, rest) ← opening? (← tokens? text)
  if rest.all (· == .documentEnd) then some document else none

end Tierwise.Yaml
