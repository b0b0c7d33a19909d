import Tierwise.Text.Hex

/-! # JSON text laid out over lines, two blanks for each level -/

namespace Tierwise.Text.Json

def char (c : Char) : String :=
  if c == '\x22' then "\\\""
  else if c == '\\' then "\\\\"
  else if c == '\x08' then "\\b"
  else if c == '\x0c' then "\\f"
  else if c == '\n' then "\\n"
  else if c == '\r' then "\\r"
  else if c == '\t' then "\\t"
  else if c.toNat < 0x20 then "\\u" ++ hex4 c.toNat
  else String.singleton c

def string (s : String) : String := "\"" ++ String.join (s.toList.map char) ++ "\""

def indent (level : Nat) : String := String.ofList (List.replicate (2 * level) ' ')

/-- Items between brackets, each on lines of its own one level deeper. -/
def enclosed (left right : String) (level : Nat) (items : List String) : String :=
  if items.isEmpty then left ++ right
  else
    left ++ "\n" ++ ",\n".intercalate (items.map (indent (level + 1) ++ ·)) ++ "\n" ++ indent level ++ right

def array (level : Nat) (items : List String) : String := enclosed "[" "]" level items

def object (level : Nat) (fields : List (String × String)) : String :=
  enclosed "\x7b" "\x7d" level (fields.map fun f => string f.1 ++ ": " ++ f.2)

end Tierwise.Text.Json
