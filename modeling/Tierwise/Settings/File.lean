import Tierwise.Settings
import Tierwise.Yaml.Table

/-! # Settings as a versioned document

Reading it, and writing what differs from the preset.
-/

namespace Tierwise

/-- Fields that a document may set on top of its preset. -/
structure Overrides where
  callChainLimit : Option UInt64 := none
  worklistLimit : Option UInt64 := none
  warnOnUndetermined : Option Bool := none
deriving DecidableEq, Repr, Inhabited

/-- What a document says, before it is looked into. -/
structure SettingsFile where
  version : Option Nat
  preset : String
  overrides : Overrides
deriving DecidableEq, Repr, Inhabited

namespace SettingsFile

open Yaml

/-- Every key is one of `names` and none comes twice. -/
def hasOnly {α : Type} (names : List String) (rows : Rows α) : Bool :=
  rows.all (fun r => names.any (·.toList == r.1)) && decide (rows.map Prod.fst).Nodup

def row? {α : Type} (name : String) (rows : Rows α) : Option α := rows.lookup name.toList

/-- An optional scalar: absent and null are the same, anything else must be read by `read`. -/
def optional? {α : Type} (read : Scalar → Option α) : Option Scalar → Option (Option α)
  | none => some none
  | some s =>
    match s.isNull? with
    | none => none
    | some true => some none
    | some false => (read s).map some

def limit? (s : Scalar) : Option UInt64 := (s.below? UInt64.size).map UInt64.ofNat

def overrides? (rows : Rows Scalar) : Option Overrides := do
  guard (hasOnly ["call_chain_limit", "worklist_limit", "warn_on_undetermined"] rows)
  let callChain ← optional? limit? (row? "call_chain_limit" rows)
  let worklist ← optional? limit? (row? "worklist_limit" rows)
  let warn ← optional? Scalar.bool? (row? "warn_on_undetermined" rows)
  return ⟨callChain, worklist, warn⟩

def version? : Option Field → Option (Option Nat)
  | none => some none
  | some (.scalar s) => optional? (Scalar.below? UInt32.size) (some s)
  | some (.table _) => none

/-- The text of any scalar will do, but there must be one. -/
def preset? : Option Field → Option String
  | some (.scalar s) => some (String.ofList s.text)
  | _ => none

/-- A scalar that says nothing at all is an empty table, whatever its tag. -/
def overridesField? : Option Field → Option Overrides
  | none => some {}
  | some (.scalar s) => (optional? (fun s => if s.isBlank then some {} else none) (some s)).map (·.getD {})
  | some (.table rows) => overrides? rows

def ofRows? (rows : Rows Field) : Option SettingsFile := do
  guard (hasOnly ["version", "preset", "overrides"] rows)
  let version ← version? (row? "version" rows)
  let preset ← preset? (row? "preset" rows)
  let overrides ← overridesField? (row? "overrides" rows)
  return ⟨version, preset, overrides⟩

def parse? (text : String) : Option SettingsFile :=
  ((document? text.toList).bind Document.rows?).bind ofRows?

def supportedVersions : List Nat := [1]

end SettingsFile

namespace Settings

def override (s : Settings) (o : Overrides) : Settings where
  preset := s.preset
  callChainLimit := o.callChainLimit.getD s.callChainLimit
  worklistLimit := o.worklistLimit.getD s.worklistLimit
  warnOnUndetermined := o.warnOnUndetermined.getD s.warnOnUndetermined

/-- The version is looked at before the preset, the preset before the limits. -/
def ofFile (file : SettingsFile) : Except SettingsError Settings :=
  match file.version with
  | none => .error .missingVersion
  | some version =>
    if !SettingsFile.supportedVersions.contains version then
      .error (.unsupportedVersion version SettingsFile.supportedVersions)
    else
      match Preset.ofText? file.preset with
      | none => .error (.unknownPreset file.preset)
      | some preset =>
        let settings := (ofPreset preset).override file.overrides
        settings.check.map fun _ => settings

def load (text : String) : Except SettingsError Settings :=
  match SettingsFile.parse? text with
  | none => .error .malformed
  | some file => ofFile file

def loadBytes (bytes : Option ByteArray) : Except SettingsError Settings :=
  match bytes.bind String.fromUTF8? with
  | none => .error .unreadable
  | some text => load text

/-- What a document has to say beside the preset. -/
def overrides (s : Settings) : Overrides :=
  let base := ofPreset s.preset
  { callChainLimit := if s.callChainLimit = base.callChainLimit then none else some s.callChainLimit
    worklistLimit := if s.worklistLimit = base.worklistLimit then none else some s.worklistLimit
    warnOnUndetermined :=
      if s.warnOnUndetermined = base.warnOnUndetermined then none else some s.warnOnUndetermined }

def renderRow (name : String) (value : Option String) : String :=
  match value with
  | none => ""
  | some v => "  " ++ name ++ ": " ++ v ++ "\n"

def renderOverrides (o : Overrides) : String :=
  if o = {} then ""
  else
    "overrides:\n" ++ renderRow "call_chain_limit" (o.callChainLimit.map (toString ·.toNat)) ++
      renderRow "worklist_limit" (o.worklistLimit.map (toString ·.toNat)) ++
      renderRow "warn_on_undetermined" (o.warnOnUndetermined.map fun b => if b then "true" else "false")

def render (s : Settings) : String :=
  "version: 1\npreset: " ++ s.preset.name ++ "\n" ++ renderOverrides s.overrides

end Settings

end Tierwise
