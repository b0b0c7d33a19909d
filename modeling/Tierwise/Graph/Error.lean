import Tierwise.Node
import Tierwise.Settings.Error

/-! # Why an operation on a graph fails -/

namespace Tierwise

inductive GraphError where
  | duplicateNode (id : String)
  | unknownNode (id : String)
  | kindMismatch (id : String) (expected found : NodeLabel)
  /-- The climb out of nested call arguments does not end in time. -/
  | callChain (start : String) (limit : Nat)
  | invariant (text : String)
  | settings (cause : SettingsError)
deriving DecidableEq, Repr, Inhabited

def GraphError.message : GraphError → String
  | duplicateNode id => s!"Duplicate node id '{id}'"
  | unknownNode id => s!"Unknown node '{id}'"
  | kindMismatch id expected found =>
    "Node '" ++ id ++ "' is a " ++ found.text ++ " node, expected " ++ expected.text
  | callChain start limit => s!"Call chain starting at '{start}' exceeded {limit} levels"
  | invariant text => s!"Invariant violated: {text}"
  | settings cause => "Configuration error: " ++ cause.message

end Tierwise
