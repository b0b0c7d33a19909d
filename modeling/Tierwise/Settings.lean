import Tierwise.Settings.Error

/-! # Presets, and the limits under which the analyses work -/

namespace Tierwise

inductive Preset where
  | fast
  | balanced
  | thorough
deriving DecidableEq, Repr, Inhabited

namespace Preset

def all : List Preset := [fast, balanced, thorough]

def name : Preset → String
  | fast => "fast"
  | balanced => "balanced"
  | thorough => "thorough"

/-- Exact spelling. -/
def ofName? (s : String) : Option Preset :=
  all.find? (·.name == s)

/-- Any letter case. Only Latin letters occur in the names, so folding those is enough. -/
def ofText? (s : String) : Option Preset :=
  ofName? (s.map Char.toLower)

def standard : Preset := balanced

theorem ofName?_name (p : Preset) : ofName? p.name = some p := by
  cases p <;> decide

end Preset

structure Settings where
  preset : Preset
  /-- How many levels of nested call arguments are climbed. -/
  callChainLimit : UInt64
  /-- How many items a search takes from its worklist. -/
  worklistLimit : UInt64
  /-- A node that falls back to the shared tag is worth a warning. -/
  warnOnUndetermined : Bool
deriving DecidableEq, Repr

namespace Settings

def ofPreset : Preset → Settings
  | .fast => ⟨.fast, 64, 100000, false⟩
  | .balanced => ⟨.balanced, 256, 1000000, false⟩
  | .thorough => ⟨.thorough, 4096, 50000000, true⟩

def standard : Settings := ofPreset Preset.standard

instance : Inhabited Settings := ⟨standard⟩

def maxCallChain : Nat := 1000000

def maxWorklist : Nat := 100000000

/-- The call chain limit is looked at first. -/
def check (s : Settings) : Except SettingsError Unit :=
  if s.callChainLimit.toNat = 0 ∨ maxCallChain < s.callChainLimit.toNat then
    .error (.outOfRange "call_chain_limit" s.callChainLimit.toNat 1 maxCallChain
      "Nested call arguments need at least one level")
  else if s.worklistLimit.toNat = 0 ∨ maxWorklist < s.worklistLimit.toNat then
    .error (.outOfRange "worklist_limit" s.worklistLimit.toNat 1 maxWorklist
      "Traversal bound must be positive and finite")
  else
    .ok ()

def Valid (s : Settings) : Prop :=
  (1 ≤ s.callChainLimit.toNat ∧ s.callChainLimit.toNat ≤ maxCallChain) ∧
    1 ≤ s.worklistLimit.toNat ∧ s.worklistLimit.toNat ≤ maxWorklist

instance (s : Settings) : Decidable s.Valid := by
  unfold Valid
  infer_instance

theorem check_eq_ok_iff (s : Settings) : s.check = .ok () ↔ s.Valid := by
  unfold check Valid
  split
  · simp; omega
  · split
    · simp; omega
    · simp; omega

theorem valid_ofPreset (p : Preset) : (ofPreset p).Valid := by
  cases p <;> decide

end Settings

end Tierwise
