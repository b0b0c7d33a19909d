/-! # Why settings are refused -/

namespace Tierwise

inductive SettingsError where
  /-- A field lies outside its range. -/
  | outOfRange (field : String) (value least greatest : Int) (hint : String)
  | missingVersion
  | unsupportedVersion (found : Nat) (supported : List Nat)
  | unknownPreset (name : String)
  /-- There is no text to read. -/
  | unreadable
  /-- The text is no settings document. -/
  | malformed
deriving DecidableEq, Repr, Inhabited

namespace SettingsError

def message : SettingsError → String
  | outOfRange field value least greatest hint =>
    s!"Invalid range for field '{field}': {value} not in {least}..={greatest}. {hint}"
  | missingVersion =>
    "Missing 'version' field in configuration file. Add 'version: 1' to the top of your YAML file."
  | unsupportedVersion found supported =>
    s!"Unsupported configuration version {found}. Supported versions: " ++
      ", ".intercalate (supported.map toString)
  | unknownPreset name => s!"Unknown preset '{name}'. Valid presets: fast, balanced, thorough"
  | unreadable => "IO error"
  | malformed => "YAML parsing error"

end SettingsError

end Tierwise
