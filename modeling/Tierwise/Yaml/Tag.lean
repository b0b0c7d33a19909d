import Tierwise.Yaml.Cursor
import Tierwise.Yaml.Scalar

/-! # Tags as they are written

Directives in front of a document may say what a tag stands for.
-/

namespace Tierwise.Yaml

/-- Characters of the names of anchors, directives and handles. -/
def isWord (c : Char) : Bool := c.isAlphanum || c == '_' || c == '-'

/-- A tag before its handle is looked up. An empty handle leaves the suffix as it is. -/
structure TagName where
  handle : List Char
  suffix : List Char
deriving DecidableEq, Repr, Inhabited

inductive Directive where
  | version (major minor : Nat)
  /-- The handle stands for the suffix. -/
  | tag (name : TagName)
deriving DecidableEq, Repr, Inhabited

/-- Characters of a tag. Between angle brackets there may be a few more. -/
def isTagChar (verbatim : Bool) (c : Char) : Bool :=
  isWord c || [';', '/', '?', ':', '@', '&', '=', '+', '$', '.', '!', '~', '*', '\x27', '(', ')'].contains c ||
    (verbatim && [',', '[', ']'].contains c)

/-- How many octets of a character are still to come after this one, when `pending` were to come before it. -/
def octetsLeft? (pending octet : Nat) : Option Nat :=
  match pending with
  | k + 1 => if 0x80 ≤ octet && octet < 0xc0 then some k else none
  | 0 =>
    if octet < 0x80 then some 0
    else if octet < 0xc0 then none
    else if octet < 0xe0 then some 1
    else if octet < 0xf0 then some 2
    else if octet < 0xf8 then some 3
    else none

/-- The octets of a tag as far as it goes. An octet may be written as two hexadecimal digits after a percent sign, and
the octets of one character must follow each other. -/
def tagText? (verbatim : Bool) : (pending : Nat) → Mark → List Char → Option (List Char × Cursor)
  | pending, m, [] => if pending == 0 then some ([], ⟨m, []⟩) else none
  | pending, m, '%' :: a :: b :: r =>
    (number? 16 [a, b]).bind fun octet =>
      (octetsLeft? pending octet).bind fun left =>
        (tagText? verbatim left (m.right 3) r).map fun p => (Char.ofNat octet :: p.1, p.2)
  | pending, m, c :: r =>
    if pending != 0 || c == '%' then none
    else if isTagChar verbatim c then (tagText? verbatim 0 m.right r).map fun p => (c :: p.1, p.2)
    else some ([], ⟨m, c :: r⟩)

/-- A tag ends at a zero octet. -/
def cut (cs : List Char) : List Char := cs.takeWhile (· != '\x00')

/-- The text of a tag, which must not be empty. -/
def tagSuffix? (verbatim : Bool) (c : Cursor) : Option (List Char × Cursor) :=
  (tagText? verbatim 0 c.mark c.rest).bind fun p => if p.1.isEmpty then none else some (cut p.1, p.2)

/-- An exclamation mark, the word after it, and the mark that closes the word if there is one. -/
def handle (c : Cursor) : List Char × Cursor :=
  let word := (c.rest.drop 1).takeWhile isWord
  let c := c.skip (word.length + 1)
  if c.rest.head? == some '!' then ('!' :: word ++ ['!'], c.skip) else ('!' :: word, c)

def isClosed (handle : List Char) : Bool := 1 < handle.length && handle.getLast? == some '!'

/-- A tag after its exclamation mark: in angle brackets, under a closed handle, or under the first handle. The mark
alone is a tag of its own. -/
def tagName? (c : Cursor) : Option (TagName × Cursor) :=
  match c.rest with
  | '!' :: '<' :: _ => do
    let (suffix, c) ← tagSuffix? true (c.skip 2)
    if c.rest.head? == some '>' then some (⟨[], suffix⟩, c.skip) else none
  | _ =>
    let (start, c) := handle c
    if isClosed start then (tagSuffix? false c).map fun p => (⟨start, p.1⟩, p.2)
    else do
      let (more, c) ← tagText? false 0 c.mark c.rest
      let suffix := cut (start.tail ++ more)
      return (if suffix.isEmpty then ⟨[], ['!']⟩ else ⟨['!'], suffix⟩, c)

def shortNumber? (c : Cursor) : Option (Nat × Cursor) :=
  let digits := c.rest.takeWhile Char.isDigit
  if 9 < digits.length then none else (number? 10 digits).map fun n => (n, c.skip digits.length)

def versionDirective? (c : Cursor) : Option (Directive × Cursor) := do
  let (major, c) ← shortNumber? c.skipBlanks
  guard (c.rest.head? == some '.')
  let (minor, c) ← shortNumber? c.skip
  return (.version major minor, c)

def tagDirective? (c : Cursor) : Option (Directive × Cursor) := do
  let c := c.skipBlanks
  guard (c.rest.head? == some '!')
  let (handle, c) := handle c
  guard (handle == ['!'] || isClosed handle)
  guard (c.rest.head?.any isBlank)
  let (suffix, c) ← tagSuffix? true c.skipBlanks
  guard (wordEnds c.rest)
  return (.tag ⟨handle, suffix⟩, c)

/-- A directive from its percent sign to the end of its line. Those of other names are refused. -/
def directive? (c : Cursor) : Option (Directive × Cursor) := do
  let name := (c.rest.drop 1).takeWhile isWord
  let c := c.skip (name.length + 1)
  guard (wordEnds c.rest)
  let (d, c) ←
    if name == "YAML".toList then versionDirective? c
    else if name == "TAG".toList then tagDirective? c
    else none
  let c ← c.endLine?
  return (d, c)

end Tierwise.Yaml
