import Tierwise.Yaml.Block
import Tierwise.Yaml.Plain
import Tierwise.Yaml.Quoted
import Tierwise.Yaml.Tag

/-! # Tokens of a document

Whether a token starts a key shows only at the colon after it, and the tokens that open a key and a table in block style
are put in where the key began. Lists have no tokens: no setting is one.
-/

namespace Tierwise.Yaml

inductive Token where
  | directive (d : Directive)
  | documentStart
  | documentEnd
  /-- A table in block style starts. -/
  | blockStart
  | blockEnd
  /-- A table in flow style starts. -/
  | flowStart
  | flowEnd
  | comma
  | key
  | value
  | anchor (name : List Char)
  | aliasOf (name : List Char)
  | tag (name : TagName)
  | scalar (text : List Char) (style : Style)
deriving DecidableEq, Repr, Inhabited

structure KeyStart where
  mark : Mark
  /-- The number of tokens before it. -/
  token : Nat
  /-- Nothing but a key can stand there. -/
  required : Bool
deriving DecidableEq, Repr, Inhabited

/-- A key and its colon stand on one line and not too far from each other. -/
def KeyStart.isStale (k : KeyStart) (m : Mark) : Bool :=
  k.mark.line < m.line || k.mark.index + 1024 < m.index

structure Scanner where
  cursor : Cursor
  /-- The tokens so far, the last one first. -/
  tokens : List Token := []
  /-- The number of tokens so far. -/
  count : Nat := 0
  /-- Columns of the open tables in block style, the innermost first. -/
  indents : List Nat := []
  /-- The key that may have begun in the innermost table. -/
  key : Option KeyStart := none
  /-- The same for the tables around the open tables in flow style, the innermost first. -/
  outer : List (Option KeyStart) := []
  /-- A key may begin at the next token. -/
  keyAllowed : Bool := true
deriving DecidableEq, Repr, Inhabited

namespace Scanner

def inFlow (s : Scanner) : Bool := !s.outer.isEmpty

/-- Content of the innermost table in block style starts at this column or right of it. -/
def floor (s : Scanner) : Nat := s.indents.head?.elim 0 (· + 1)

def push (s : Scanner) (t : Token) : Scanner := { s with tokens := t :: s.tokens, count := s.count + 1 }

/-- Puts a token behind the first `place` ones. -/
def insert (s : Scanner) (place : Nat) (t : Token) : Scanner :=
  { s with tokens := s.tokens.insertIdx (s.count - place) t, count := s.count + 1 }

/-- Ends the tables in block style whose column satisfies `p`, from the innermost on. -/
def unroll (p : Nat → Bool) (s : Scanner) : Scanner :=
  if s.inFlow then s
  else
    let closed := s.indents.takeWhile p
    { closed.foldl (fun s _ => s.push .blockEnd) s with indents := s.indents.dropWhile p }

/-- Starts a table in block style at a column, behind the first `place` tokens, if none is open there. -/
def roll (s : Scanner) (column place : Nat) : Scanner :=
  if !s.inFlow && s.indents.head?.all (· < column) then
    { s.insert place .blockStart with indents := column :: s.indents }
  else s

/-- Gives up the key that may have begun, unless it is required. -/
def dropKey? (s : Scanner) : Option Scanner :=
  if s.key.any KeyStart.required then none else some { s with key := none }

/-- Gives up every key whose colon can no longer come, unless it is required. -/
def dropStale? (s : Scanner) : Option Scanner :=
  let fresh := fun (k : Option KeyStart) => k.filter fun k => !k.isStale s.cursor.mark
  let stale := fun (k : Option KeyStart) => k.any fun k => k.required && k.isStale s.cursor.mark
  if (s.key :: s.outer).any stale then none else some { s with key := fresh s.key, outer := s.outer.map fresh }

def saveKey? (s : Scanner) : Option Scanner :=
  if s.keyAllowed then
    s.dropKey?.map fun s =>
      { s with key := some {
        mark := s.cursor.mark
        token := s.count
        required := !s.inFlow && s.indents.head? == some s.cursor.mark.column } }
  else some s

def advance? (s : Scanner) : Option Scanner :=
  let (keyAllowed, cursor) := toToken s.inFlow false s.keyAllowed s.cursor.mark s.cursor.rest
  ({ s with keyAllowed, cursor }).dropStale?.map (unroll (cursor.mark.column < ·))

def directive? (s : Scanner) : Option Scanner := do
  let s ← (s.unroll fun _ => true).dropKey?
  let (d, cursor) ← Yaml.directive? s.cursor
  return { s.push (.directive d) with cursor, keyAllowed := false }

/-- A line that parts documents. -/
def marker? (s : Scanner) (t : Token) : Option Scanner := do
  let s ← (s.unroll fun _ => true).dropKey?
  return { s.push t with cursor := s.cursor.skip 3, keyAllowed := false }

/-- No table lies deeper than in another one. -/
def openFlow? (s : Scanner) : Option Scanner := do
  guard (s.outer.length < 2)
  let s ← s.saveKey?
  return { s.push .flowStart with cursor := s.cursor.skip, outer := s.key :: s.outer, key := none, keyAllowed := true }

def closeFlow? (s : Scanner) : Option Scanner := do
  let s ← s.dropKey?
  return { s.push .flowEnd with
    cursor := s.cursor.skip, key := s.outer.head?.join, outer := s.outer.tail, keyAllowed := false }

def comma? (s : Scanner) : Option Scanner := do
  let s ← s.dropKey?
  return { s.push .comma with cursor := s.cursor.skip, keyAllowed := true }

/-- A question mark that starts a key. -/
def key? (s : Scanner) : Option Scanner := do
  guard (s.inFlow || s.keyAllowed)
  let s ← (s.roll s.cursor.mark.column s.count).dropKey?
  return { s.push .key with cursor := s.cursor.skip, keyAllowed := !s.inFlow }

/-- A colon: what came since a key may have begun is the key. Without that a key was left out or started by a question
mark. -/
def value? (s : Scanner) : Option Scanner :=
  match s.key with
  | some k =>
    let s := (s.insert k.token .key).roll k.mark.column k.token
    some { s.push .value with cursor := s.cursor.skip, key := none, keyAllowed := false }
  | none =>
    if s.inFlow || s.keyAllowed then
      let s := s.roll s.cursor.mark.column s.count
      some { s.push .value with cursor := s.cursor.skip, keyAllowed := !s.inFlow }
    else none

def name? (s : Scanner) (token : List Char → Token) : Option Scanner := do
  let s ← s.saveKey?
  let name := (s.cursor.rest.drop 1).takeWhile isWord
  let cursor := s.cursor.skip (name.length + 1)
  guard (!name.isEmpty)
  guard (wordEnds cursor.rest || cursor.rest.head?.any ['?', ':', ',', ']', '\x7d', '%', '@', '\x60'].contains)
  return { s.push (token name) with cursor, keyAllowed := false }

def tag? (s : Scanner) : Option Scanner := do
  let s ← s.saveKey?
  let (name, cursor) ← tagName? s.cursor
  guard (wordEnds cursor.rest || (s.inFlow && cursor.rest.head? == some ','))
  return { s.push (.tag name) with cursor, keyAllowed := false }

def block? (s : Scanner) (style : Style) : Option Scanner := do
  let s ← s.dropKey?
  let (text, cursor) ← Yaml.block? (style == .folded) s.floor s.cursor.skip
  return { s.push (.scalar text style) with cursor, keyAllowed := true }

/-- Quoted text, read by `read` after its opening quote. -/
def quoted? (s : Scanner) (read : Mark → List Char → Option (List Char × Cursor)) : Option Scanner := do
  let s ← s.saveKey?
  let start := s.cursor.skip
  let (text, cursor) ← read start.mark start.rest
  return { s.push (.scalar text .quoted) with cursor, keyAllowed := false }

def plain? (s : Scanner) : Option Scanner := do
  let s ← s.saveKey?
  let p ← Yaml.plain? s.inFlow s.floor .empty s.cursor.mark s.cursor.rest
  return { s.push (.scalar p.text .plain) with cursor := p.cursor, keyAllowed := p.broken }

def token? (s : Scanner) : Option Scanner :=
  match s.cursor.rest with
  | [] => none
  | c :: r =>
    if c == '%' && s.cursor.mark.column == 0 then s.directive?
    else if isMarker '-' s.cursor.mark (c :: r) then s.marker? .documentStart
    else if isMarker '.' s.cursor.mark (c :: r) then s.marker? .documentEnd
    else if c == '\x7b' then s.openFlow?
    else if c == '\x7d' then s.closeFlow?
    else if c == ',' then s.comma?
    else if c == '?' && (s.inFlow || wordEnds r) then s.key?
    else if c == ':' && (s.inFlow || wordEnds r) then s.value?
    else if c == '*' then s.name? .aliasOf
    else if c == '&' then s.name? .anchor
    else if c == '!' then s.tag?
    else if c == '|' && !s.inFlow then s.block? .literal
    else if c == '>' && !s.inFlow then s.block? .folded
    else if c == '\x27' then s.quoted? (single? .empty)
    else if c == '\x22' then s.quoted? (double? 0 .empty)
    else if plainStarts s.inFlow (c :: r) then s.plain?
    else none

/-- Reads at most `fuel` tokens and needs to come to the end. -/
def run? : (fuel : Nat) → Scanner → Option (List Token)
  | 0, _ => none
  | fuel + 1, s =>
    s.advance?.bind fun s =>
      if s.cursor.rest.isEmpty then (s.unroll fun _ => true).dropKey?.map (·.tokens.reverse)
      else s.token?.bind (run? fuel)

end Scanner

/-- The tokens of a text. Every token takes at least one character. -/
def tokens? (text : List Char) : Option (List Token) :=
  let cs := unifyBreaks text
  if cs.all isAllowed then Scanner.run? (cs.length + 1) { cursor := ⟨{}, cs⟩ } else none

end Tierwise.Yaml
