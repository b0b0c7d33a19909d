import Tierwise.Proofs.Yaml.Page
import Tierwise.Settings.File

/-! # Settings written and read back

What is written for settings is a page of words, so reading it gives the preset and the overrides that were written.
Put on the preset, the overrides make the settings again, and only then are the limits looked at.
-/

namespace Tierwise

open Yaml

namespace Yaml

def isWordText (cs : List Char) : Bool := !cs.isEmpty && cs.all isLetter

def Word.ofString (s : String) (h : isWordText s.toList = true := by decide) : Word where
  text := s.toList
  ne_nil := by
    simp only [isWordText, Bool.and_eq_true] at h
    simpa using h.1
  letters := by
    simp only [isWordText, Bool.and_eq_true, List.all_eq_true] at h
    exact h.2

def Key.ofString (s : String) (h : isWordText s.toList = true := by decide)
    (hshort : s.toList.length ≤ 1024 := by decide) : Key :=
  ⟨.ofString s h, hshort⟩

def Word.flag (b : Bool) : Word := if b then .ofString "true" else .ofString "false"

end Yaml

theorem Preset.map_toLower_name (p : Preset) : p.name.map Char.toLower = p.name := by
  rw [← String.toList_inj, String.toList_map]
  cases p <;> decide

def Preset.word (p : Preset) : Word := .ofString p.name (by cases p <;> decide)

/-- A row of the inner table, or nothing. -/
def optionalRow {α : Type} (name : Key) (word : α → Word) (value : Option α) : List (Key × Word) :=
  (value.map fun a => (name, word a)).toList

namespace Overrides

/-- The rows of the inner table. -/
def rows (o : Overrides) : List (Key × Word) :=
  optionalRow (.ofString "call_chain_limit") (fun n : UInt64 => .number n.toNat) o.callChainLimit ++
    optionalRow (.ofString "worklist_limit") (fun n : UInt64 => .number n.toNat) o.worklistLimit ++
    optionalRow (.ofString "warn_on_undetermined") .flag o.warnOnUndetermined

/-- The inner table, unless it has no rows. -/
def entry (o : Overrides) : List (Key × Content) :=
  match o.rows with
  | [] => []
  | first :: more => [(.ofString "overrides", .table first more)]

theorem rows_eq_nil_iff (o : Overrides) : o.rows = [] ↔ o = {} := by
  obtain ⟨_ | _, _ | _, _ | _⟩ := o <;> simp [rows, optionalRow]

end Overrides

namespace Settings

/-- What is written for settings, row by row. -/
def page (s : Settings) : List (Key × Content) :=
  (.ofString "version", .word (.ofString "1")) :: (.ofString "preset", .word s.preset.word) :: s.overrides.entry

theorem foldr_optionalRow {α : Type} {print : α → String} {word : α → Word}
    (hword : ∀ a, (print a).toList = (word a).text) (name : String)
    (hname : isWordText name.toList = true) (hshort : name.toList.length ≤ 1024) (value : Option α) (rest : List Char) :
    (optionalRow (.ofString name hname hshort) word value).foldr (line 2) rest =
      (renderRow name (value.map print)).toList ++ rest := by
  cases value with
  | none => rfl
  | some a => simp [renderRow, optionalRow, line, label, Key.ofString, Word.ofString, hword, List.replicate]

theorem toList_renderOverrides (o : Overrides) : (renderOverrides o).toList = pageText o.entry := by
  by_cases h : o = {}
  · subst h
    simp [renderOverrides, Overrides.entry, Overrides.rows, optionalRow, pageText]
  · have hne : o.rows ≠ [] := fun hrows => h (o.rows_eq_nil_iff.1 hrows)
    obtain ⟨first, more, hrows⟩ := List.exists_cons_of_ne_nil hne
    have hnumber : ∀ n : UInt64, (toString n.toNat).toList = (Word.number n.toNat).text := by
      simp [Nat.toString_eq_repr, Word.number]
    have hflag : ∀ b : Bool, (if b then "true" else "false").toList = (Word.flag b).text := by
      intro b
      cases b <;> rfl
    have hheader : "overrides:\n".toList = "overrides".toList ++ [':', '\n'] := by decide
    have hentry : pageText o.entry = "overrides:\n".toList ++ o.rows.foldr (line 2) [] := by
      rw [Overrides.entry, hrows, hheader]
      simp [pageText, entryText, label, Key.ofString, Word.ofString]
    rw [hentry, renderOverrides, if_neg h, Overrides.rows, List.foldr_append, List.foldr_append,
      foldr_optionalRow hnumber, foldr_optionalRow hnumber, foldr_optionalRow hflag]
    simp only [String.toList_append, List.append_assoc, List.append_nil]

theorem toList_render (s : Settings) : s.render.toList = pageText s.page := by
  -- rewriting with the definition would make Lean compare its string literals with the text of the overrides
  have hrender : s.render = "version: 1\npreset: " ++ s.preset.name ++ "\n" ++ renderOverrides s.overrides := rfl
  have hpage : pageText s.page = "version".toList ++ ':' :: ' ' :: ("1".toList ++ '\n' ::
      ("preset".toList ++ ':' :: ' ' :: (s.preset.name.toList ++ '\n' :: pageText s.overrides.entry))) := rfl
  rw [hpage, ← toList_renderOverrides, hrender]
  simp

end Settings

/-! ## Reading the rows -/

namespace SettingsFile

theorem guard_of {p : Prop} [Decidable p] (h : p) : (guard p : Option Unit) = some () := if_pos h

theorem optional?_number (n : UInt64) : optional? limit? (some (Word.number n.toNat).scalar) = some (some n) := by
  have hlimit : limit? (Word.number n.toNat).scalar = some n := by
    rw [limit?, Word.below?_number n.toNat_lt_size, Option.map_some, UInt64.ofNat_toNat]
  rw [optional?, Word.isNull?_number, hlimit]
  rfl

theorem optional?_flag (b : Bool) : optional? Scalar.bool? (some (Word.flag b).scalar) = some (some b) := by
  cases b <;> decide

theorem hasOnly_rows (o : Overrides) :
    hasOnly ["call_chain_limit", "worklist_limit", "warn_on_undetermined"] (o.rows.map lineField) = true := by
  obtain ⟨_ | callChain, _ | worklist, _ | warn⟩ := o <;>
    simp [hasOnly, Overrides.rows, optionalRow, lineField, Key.ofString, Word.ofString]

theorem overrides?_rows (o : Overrides) : overrides? (o.rows.map lineField) = some o := by
  have hnone {α : Type} (read : Scalar → Option α) : optional? read none = some none := rfl
  rw [overrides?, guard_of (hasOnly_rows o)]
  -- each of the three rows is there or not
  obtain ⟨_ | callChain, _ | worklist, _ | warn⟩ := o <;>
    simp [row?, Overrides.rows, optionalRow, lineField, Key.ofString, Word.ofString, List.lookup_cons, optional?_number,
      optional?_flag, hnone]

theorem overridesField?_entry (o : Overrides) :
    overridesField? (row? "overrides" (o.entry.map entryField)) = some o := by
  have hinner := overrides?_rows o
  rw [Overrides.entry]
  cases hrows : o.rows with
  | nil =>
    rw [o.rows_eq_nil_iff.1 hrows]
    rfl
  | cons first more =>
    rw [hrows] at hinner
    simpa [row?, entryField, Content.field, Key.ofString, Word.ofString, List.lookup_cons, overridesField?] using hinner

theorem hasOnly_page (s : Settings) :
    hasOnly ["version", "preset", "overrides"] (s.page.map entryField) = true := by
  rw [Settings.page, Overrides.entry]
  cases s.overrides.rows <;> simp [hasOnly, entryField, Key.ofString, Word.ofString]

theorem ofRows?_page (s : Settings) :
    ofRows? (s.page.map entryField) = some ⟨some 1, s.preset.name, s.overrides⟩ := by
  have hversion : version? (row? "version" (s.page.map entryField)) = some (some 1) := rfl
  have hpreset : preset? (row? "preset" (s.page.map entryField)) = some s.preset.name := by
    simp [Settings.page, row?, entryField, Content.field, Key.ofString, Word.ofString, List.lookup_cons, preset?, Preset.word,
      Word.scalar]
  have hoverrides : overridesField? (row? "overrides" (s.page.map entryField)) = some s.overrides := by
    rw [← overridesField?_entry s.overrides]
    simp [Settings.page, row?, entryField, Key.ofString, Word.ofString, List.lookup_cons]
  rw [ofRows?, guard_of (hasOnly_page s)]
  simp [hversion, hpreset, hoverrides]

theorem parse?_render (s : Settings) : parse? s.render = some ⟨some 1, s.preset.name, s.overrides⟩ := by
  have hpage : s.page ≠ [] := List.cons_ne_nil _ _
  rw [parse?, Settings.toList_render, rows?_pageText hpage, Option.bind_some, ofRows?_page]

end SettingsFile

namespace Settings

/-- What differs from the preset, put on the preset, makes the settings again. -/
theorem override_overrides (s : Settings) : (ofPreset s.preset).override s.overrides = s := by
  have hpreset : ∀ p : Preset, (ofPreset p).preset = p := by
    intro p
    cases p <;> rfl
  have hfield {α : Type} [DecidableEq α] (a b : α) : (if a = b then none else some a).getD b = a := by
    split
    · simp [*]
    · rfl
  simp [override, overrides, hpreset, hfield]

theorem ofFile_overrides (s : Settings) :
    ofFile ⟨some 1, s.preset.name, s.overrides⟩ = s.check.map fun _ => s := by
  have hname : Preset.ofText? s.preset.name = some s.preset := by
    rw [Preset.ofText?, s.preset.map_toLower_name, Preset.ofName?_name]
  simp [ofFile, hname, override_overrides, SettingsFile.supportedVersions]

/-- Reading back what was written is the check of the settings. -/
theorem load_render_eq (s : Settings) : load s.render = s.check.map fun _ => s := by
  rw [load, SettingsFile.parse?_render]
  exact ofFile_overrides s

theorem check_eq_ok_of_map {s t : Settings} (h : (s.check.map fun _ => s) = .ok t) : t.check = .ok () := by
  cases hcheck : s.check with
  | error e => simp [hcheck, Except.map] at h
  | ok =>
    have hst : s = t := by simpa [hcheck, Except.map] using h
    rw [← hst, hcheck]

theorem check_eq_ok_of_load {text : String} {s : Settings} (h : load text = .ok s) : s.check = .ok () := by
  unfold load ofFile at h
  split at h
  · cases h
  · split at h
    · cases h
    · split at h
      · cases h
      · split at h
        · cases h
        · exact check_eq_ok_of_map h

/-- Only the range of a limit is ever complained about. -/
theorem outOfRange_of_check {s : Settings} {e : SettingsError} (h : s.check = .error e) :
    ∃ field value least greatest hint, e = .outOfRange field value least greatest hint := by
  unfold check at h
  split at h
  · cases h
    exact ⟨_, _, _, _, _, rfl⟩
  · split at h
    · cases h
      exact ⟨_, _, _, _, _, rfl⟩
    · cases h

/-- Writing settings always gives a document of the supported version that names the preset and what differs from it.
Reading it gives the settings back if they are valid, and otherwise the error that they have. Whatever was read is
valid, so that it can be written and read again. -/
theorem written_settings_read_back :
    (∀ s : Settings,
      SettingsFile.parse? s.render = some ⟨some 1, s.preset.name, s.overrides⟩ ∧
        (s.check = .ok () → load s.render = .ok s) ∧
        ∀ e, s.check = .error e →
          load s.render = .error e ∧
            ∃ field value least greatest hint, e = .outOfRange field value least greatest hint) ∧
      ∀ text s, load text = .ok s → s.check = .ok () ∧ load s.render = .ok s := by
  have hvalid (s : Settings) (h : s.check = .ok ()) : load s.render = .ok s := by
    rw [load_render_eq, h]
    rfl
  constructor
  · intro s
    refine ⟨SettingsFile.parse?_render s, hvalid s, fun e h => ⟨?_, outOfRange_of_check h⟩⟩
    rw [load_render_eq, h]
    rfl
  · intro text s h
    have hcheck := check_eq_ok_of_load h
    exact ⟨hcheck, hvalid s hcheck⟩

/-- One limit is the default of another preset, and the other one is as large as can be. -/
def unbounded : Settings := ⟨.fast, 256, 18446744073709551615, true⟩

/-- A document in another style than the one that is written, with a limit in hexadecimal and one left out by name. -/
theorem written_settings_read_back_unbounded :
    let err := SettingsError.outOfRange "worklist_limit" 18446744073709551615 1 100000000
      "Traversal bound must be positive and finite"
    let text := "preset: 'Thorough'\nversion: 1\noverrides: \x7bworklist_limit: 0x10, call_chain_limit: ~\x7d"
    let s : Settings := ⟨.thorough, 4096, 16, true⟩
    (unbounded.check = .error err ∧ load unbounded.render = .error err) ∧
      load text = .ok s ∧ s.check = .ok () ∧ load s.render = .ok s := by
  intro err text s
  have hcheck : unbounded.check = .error err := by decide
  have hload : load text = .ok s := by decide +kernel
  exact ⟨⟨hcheck, ((written_settings_read_back.1 unbounded).2.2 err hcheck).1⟩, hload,
    written_settings_read_back.2 text s hload⟩

end Settings

end Tierwise
