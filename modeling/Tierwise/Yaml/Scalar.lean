/-! # Scalars of a settings document and the values that they stand for -/

namespace Tierwise.Yaml

inductive Style where
  | plain
  | quoted
  /-- A block of lines that keeps its breaks. -/
  | literal
  /-- A block of lines that are joined. -/
  | folded
deriving DecidableEq, Repr, Inhabited

structure Scalar where
  text : List Char
  style : Style
  tag : Option (List Char)
deriving DecidableEq, Repr, Inhabited

def standardPrefix : List Char := "tag:yaml.org,2002:".toList

def nullTag : List Char := standardPrefix ++ "null".toList

def boolTag : List Char := standardPrefix ++ "bool".toList

def intTag : List Char := standardPrefix ++ "int".toList

namespace Scalar

/-- What stands where a value was left out. -/
def missing : Scalar := ⟨[], .plain, none⟩

/-- Nothing was written, tags apart. -/
def isBlank (s : Scalar) : Bool := s.style == .plain && s.text.isEmpty

def isNullWord (s : Scalar) : Bool := ["~", "null", "Null", "NULL"].any (·.toList == s.text)

/-- Whether the scalar says that there is no value. A tag takes that meaning away, the tag for it demands the word, and
without the word there is no answer. -/
def isNull? (s : Scalar) : Option Bool :=
  if s.style != .plain then some false
  else
    match s.tag with
    | none => some (s.text.isEmpty || s.isNullWord)
    | some tag => if tag != nullTag then some false else if s.isNullWord then some true else none

/-- Only a plain scalar can stand for anything but text, and a literal block under the right tag. -/
def standsFor (s : Scalar) (tag : List Char) : Bool :=
  s.style == .plain || (s.style == .literal && s.tag == some tag)

def bool? (s : Scalar) : Option Bool :=
  if !s.standsFor boolTag then none
  else if ["true", "True", "TRUE"].any (·.toList == s.text) then some true
  else if ["false", "False", "FALSE"].any (·.toList == s.text) then some false
  else none

end Scalar

/-- The value of a digit, `none` for any other character. -/
def digit? (base : Nat) (c : Char) : Option Nat :=
  let n := c.toNat
  let value :=
    if '0'.toNat ≤ n ∧ n ≤ '9'.toNat then n - '0'.toNat
    else if 'a'.toNat ≤ n ∧ n ≤ 'z'.toNat then n - 'a'.toNat + 10
    else if 'A'.toNat ≤ n ∧ n ≤ 'Z'.toNat then n - 'A'.toNat + 10
    else base
  if value < base then some value else none

/-- The number that follows `acc` when the digits of `cs` are read on. -/
def digits? (base : Nat) : (acc : Nat) → List Char → Option Nat
  | acc, [] => some acc
  | acc, c :: r => (digit? base c).bind fun d => digits? base (acc * base + d) r

/-- At least one digit and nothing else. -/
def number? (base : Nat) (cs : List Char) : Option Nat :=
  if cs.isEmpty then none else digits? base 0 cs

/-- A zero in front of further decimal digits makes no number. -/
def zeroPadded : List Char → Bool
  | '0' :: r => !r.isEmpty && r.all Char.isDigit
  | _ => false

/-- A number with an optional plus sign, in decimal or after `0x`, `0o` or `0b`. -/
def unsigned? (cs : List Char) : Option Nat :=
  let body := match cs with
    | '+' :: r => r
    | _ => cs
  match body with
  | '0' :: 'x' :: r => number? 16 r
  | '0' :: 'o' :: r => number? 8 r
  | '0' :: 'b' :: r => number? 2 r
  | _ => if zeroPadded body then none else number? 10 body

/-- The number that a scalar stands for, if it is below `bound`. -/
def Scalar.below? (bound : Nat) (s : Scalar) : Option Nat :=
  if s.standsFor intTag then (unsigned? s.text).filter (· < bound) else none

end Tierwise.Yaml
