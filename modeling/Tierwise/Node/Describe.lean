import Tierwise.Node
import Tierwise.Text.Hex
import Tierwise.Text.Unprintable

/-! # A node on one line, for a reader who looks for faults -/

namespace Tierwise

namespace Describe

def char (c : Char) : String :=
  if c == '\x22' then "\\\""
  else if c == '\\' then "\\\\"
  else if c == '\n' then "\\n"
  else if c == '\r' then "\\r"
  else if c == '\t' then "\\t"
  else if c == '\x00' then "\\0"
  else if Text.isUnprintable c then "\\u\x7b" ++ Text.hex c.toNat ++ "\x7d"
  else String.singleton c

def quoted (s : String) : String := "\"" ++ String.join (s.toList.map char) ++ "\""

def record (name : String) (fields : List (String × String)) : String :=
  name ++ " \x7b " ++ ", ".intercalate (fields.map fun f => f.1 ++ ": " ++ f.2) ++ " \x7d"

def wrapped (name inner : String) : String := name ++ "(" ++ inner ++ ")"

def optional {α : Type} (f : α → String) : Option α → String
  | none => "None"
  | some a => wrapped "Some" (f a)

def bool (b : Bool) : String := if b then "true" else "false"

def nodeRef (n : NodeRef) : String := wrapped "NodeIndex" (toString n)

def list (items : List String) : String := "[" ++ ", ".intercalate items ++ "]"

def tier : Tier → String
  | .client => "Client"
  | .server => "Server"
  | .shared => "Shared"

def tag : Tag → String
  | .tier t => wrapped "Tier" (tier t)
  | .named s => wrapped "Named" (quoted s)

def arity : Arity → String
  | .one => "One"
  | .all => "All"

def entryState (s : EntryState) : String :=
  record "EntryData" [("is_called", bool s.isCalled), ("client_calls_nr", toString s.clientCalls),
    ("server_calls_nr", toString s.serverCalls), ("is_constructor", bool s.isConstructor),
    ("exc_exits", list (s.exceptionExits.map nodeRef))]

def members (ms : List (String × NodeRef)) : String :=
  "\x7b" ++ ", ".intercalate (ms.map fun m => quoted m.1 ++ ": " ++ nodeRef m.2) ++ "\x7d"

def objectState (s : ObjectState) : String :=
  record "ObjectEntryData" [("entry", entryState s.entry), ("members", members s.members),
    ("constructor_node", optional nodeRef s.constructorNode)]

def sliceMark (m : SliceMark) : String :=
  record "FunctionalityData" [("ftype", tag m.tag), ("tier", optional tier m.tier),
    ("distributed", bool m.distributed)]

def kind : NodeKind → String
  | .entry s => wrapped "Entry" (entryState s)
  | .objectEntry s => wrapped "ObjectEntry" (objectState s)
  | .call a => record "Call" [("arity", optional arity a)]
  | .statement => "Statement"
  | .formal flow name => record "FormalParameter" [("direction", flow.name), ("name", quoted name)]
  | .actual flow value => record "ActualParameter" [("direction", flow.name), ("value", optional quoted value)]
  | .exit exceptional => record "Exit" [("exception", bool exceptional)]
  | .slice mark => wrapped "Functionality" (sliceMark mark)

end Describe

/-- Members come in no particular order, so more than one of them cannot be put on a line. -/
def Node.describe? (n : Node) : Option String :=
  if (n.objectState?.map fun s => s.members.length).getD 0 > 1 then none
  else
    some (Describe.record "PdgNode" [("id", Describe.quoted n.id), ("cnt", toString n.serial),
      ("kind", Describe.kind n.kind),
      ("construct", Describe.optional (fun c => Describe.wrapped "ConstructId" (toString c.id.toNat)) n.construct)])

end Tierwise
