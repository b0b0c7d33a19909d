/-! # Places in a document

Characters that part words and lines, and the way from one token to the next.
-/

namespace Tierwise.Yaml

/-- Characters that may stand in a document at all. -/
def isAllowed (c : Char) : Bool :=
  let n := c.toNat
  n == 0x09 || n == 0x0a || n == 0x0d || (0x20 ≤ n && n ≤ 0x7e) || n == 0x85 || (0xa0 ≤ n && n ≤ 0xfffd) ||
    0x10000 ≤ n

/-- Every kind of line break as one, the separators of lines and of paragraphs apart, which keep their own text. -/
def unifyBreaks : List Char → List Char
  | [] => []
  | '\r' :: '\n' :: r => '\n' :: unifyBreaks r
  | c :: r => (if c == '\r' || c == '\u0085' then '\n' else c) :: unifyBreaks r

def isBlank (c : Char) : Bool := c == ' ' || c == '\t'

def isBreak (c : Char) : Bool := c == '\n' || c == '\u2028' || c == '\u2029'

def isSpace (c : Char) : Bool := isBlank c || isBreak c

/-- A word ends here: at a blank, a break or the end. -/
def wordEnds : List Char → Bool
  | [] => true
  | c :: _ => isSpace c

/-- How far a reader has come. Lines and columns count from zero. -/
structure Mark where
  index : Nat := 0
  line : Nat := 0
  column : Nat := 0
deriving DecidableEq, Repr, Inhabited

namespace Mark

def right (m : Mark) (count : Nat := 1) : Mark := ⟨m.index + count, m.line, m.column + count⟩

def down (m : Mark) : Mark := ⟨m.index + 1, m.line + 1, 0⟩

def past (m : Mark) (c : Char) : Mark := if isBreak c then m.down else m.right

end Mark

/-- A place in a document, and the text from there on. -/
structure Cursor where
  mark : Mark
  rest : List Char
deriving DecidableEq, Repr, Inhabited

namespace Cursor

def skip (c : Cursor) (count : Nat := 1) : Cursor := ⟨c.mark.right count, c.rest.drop count⟩

/-- Over the characters that satisfy `p`, none of which may be a break. -/
def skipWhile (p : Char → Bool) (c : Cursor) : Cursor :=
  c.skip (c.rest.takeWhile p).length

def skipBlanks (c : Cursor) : Cursor := c.skipWhile isBlank

/-- Over blanks and a comment to the next line. Anything else on this line is refused. -/
def endLine? (c : Cursor) : Option Cursor :=
  let c := c.skipBlanks
  let c := if c.rest.head? == some '#' then c.skipWhile (!isBreak ·) else c
  match c.rest with
  | [] => some c
  | b :: r => if isBreak b then some ⟨c.mark.down, r⟩ else none

end Cursor

/-- A line that starts with three such characters and goes on with a space parts documents. -/
def isMarker (c : Char) (m : Mark) (cs : List Char) : Bool :=
  m.column == 0 && cs.take 3 == [c, c, c] && wordEnds (cs.drop 3)

def parts (m : Mark) (cs : List Char) : Bool := isMarker '-' m cs || isMarker '.' m cs

/-- Goes on to the next token, over blanks, breaks, comments, and byte order marks that start a line. In block style a
new line lets a key begin, and a tab is not passed where a key may begin. Tells whether a key may begin at the token. -/
def toToken (flow : Bool) : (comment keyAllowed : Bool) → Mark → List Char → Bool × Cursor
  | _, keyAllowed, m, [] => (keyAllowed, ⟨m, []⟩)
  | comment, keyAllowed, m, c :: r =>
    if isBreak c then toToken flow false (keyAllowed || !flow) m.down r
    else if comment || c == '#' then toToken flow true keyAllowed m.right r
    else if c == ' ' || (c == '\t' && (flow || !keyAllowed)) || (c == '\ufeff' && m.column == 0) then
      toToken flow false keyAllowed m.right r
    else
      (keyAllowed, ⟨m, c :: r⟩)

end Tierwise.Yaml
