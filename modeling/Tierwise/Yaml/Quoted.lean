import Tierwise.Yaml.Gap
import Tierwise.Yaml.Scalar

/-! # Text between quotes

Where it ends, how its lines are folded, and what its escapes mean.
-/

namespace Tierwise.Yaml

/-- The text after an opening single quote. A doubled quote stands for one. -/
def single? : Gap → Mark → List Char → Option (List Char × Cursor)
  | _, _, [] => none
  | gap, m, c :: r =>
    if isSpace c then single? (gap.add c) (m.past c) r
    else if parts m (c :: r) then none
    else if c == '\x27' then
      match r with
      | '\x27' :: t => (single? .empty (m.right 2) t).map fun p => (gap.text ++ '\x27' :: p.1, p.2)
      | _ => some (gap.text, ⟨m.right, r⟩)
    else
      (single? .empty m.right r).map fun p => (gap.text ++ c :: p.1, p.2)

def escapes : List (Char × Char) :=
  [('0', '\x00'), ('a', '\x07'), ('b', '\x08'), ('t', '\t'), ('\t', '\t'), ('n', '\n'), ('v', '\x0b'), ('f', '\x0c'),
    ('r', '\r'), ('e', '\x1b'), (' ', ' '), ('\x22', '\x22'), ('/', '/'), ('\\', '\\'), ('N', '\u0085'),
    ('_', '\u00a0'), ('L', '\u2028'), ('P', '\u2029')]

/-- How many hexadecimal digits follow the letter of an escape. -/
def codeWidth? : Char → Option Nat
  | 'x' => some 2
  | 'u' => some 4
  | 'U' => some 8
  | _ => none

/-- The character that `width` hexadecimal digits name. -/
def coded? (width : Nat) (cs : List Char) : Option Char := do
  let digits := cs.take width
  guard (digits.length = width)
  let code ← number? 16 digits
  if code.isValidChar then some (Char.ofNat code) else none

/-- The character that an escape stands for and how many characters the escape has after its letter. -/
def escaped? (letter : Char) (cs : List Char) : Option (Char × Nat) :=
  match codeWidth? letter with
  | some width => (coded? width cs).map fun c => (c, width)
  | none => (escapes.lookup letter).map fun c => (c, 0)

/-- The text after an opening double quote. An escaped break joins two lines without a space, and an unknown escape is
refused. `pending` counts the characters of an escape that are still to be passed. -/
def double? : (pending : Nat) → Gap → Mark → List Char → Option (List Char × Cursor)
  | _, _, _, [] => none
  | pending + 1, gap, m, _ :: r => double? pending gap m.right r
  | 0, gap, m, c :: r =>
    if isSpace c then double? 0 (gap.add c) (m.past c) r
    else if parts m (c :: r) then none
    else if c == '\x22' then some (gap.text, ⟨m.right, r⟩)
    else if c == '\\' then
      match r with
      | [] => none
      | letter :: t =>
        if isBreak letter then (double? 0 (.broken none []) m.right.down t).map fun p => (gap.text ++ p.1, p.2)
        else
          (escaped? letter t).bind fun e =>
            (double? e.2 .empty (m.right 2) t).map fun p => (gap.text ++ e.1 :: p.1, p.2)
    else
      (double? 0 .empty m.right r).map fun p => (gap.text ++ c :: p.1, p.2)

end Tierwise.Yaml
