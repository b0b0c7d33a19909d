import Tierwise.Proofs.TagLookup

/-! # Operations that are refused

Each one looks at everything that can make it fail before it writes anything, so a refusal leaves the graph as it was.
The one exception is a slice root whose spelling is taken: its creation number is used up before its id is looked up.
Settings are looked at before they are kept, so a graph never has settings that fail their check.
-/

namespace Tierwise

/-- Why something failed, if it did. -/
def failure? {α : Type} : Except GraphError α → Option GraphError
  | .error err => some err
  | .ok _ => none

theorem failure?_mapError {α ε : Type} (f : ε → GraphError) (x : Except ε α) :
    failure? (x.mapError f) =
      match x with
      | .error err => some (f err)
      | .ok _ => none := by
  cases x <;> rfl

namespace Edit

/-- Why the operation is refused, if it is. -/
def error? (g : Graph) : Edit → Option GraphError
  | addSliceRoot tag tier => failure? (g.addSliceRoot tag tier).1
  | addTierRoot tier => failure? (g.addTierRoot tier).1
  | ensureTierRoot tier => failure? (g.ensureTierRoot tier).1
  | addExceptionExit entry exit => failure? (g.addExceptionExit entry exit).1
  | setIsConstructor entry flag => failure? (g.setIsConstructor entry flag).1
  | addCall entry call => failure? (Query.addCall entry call g).value
  | addMember object name member => failure? (g.addMember object name member).1
  | setConstructorNode object node => failure? (g.setConstructorNode object node).1
  | setArity call arity => failure? (g.setArity call arity).1
  | setSettings settings => failure? (g.setSettings settings).1
  | addEntry _ | addObjectEntry _ | addCallNode _ | addStatement _ | addFormal _ _ | addActual _ _ _ | addExit _ _ => none
  | addEdge _ _ _ _ | addEdgesOut _ _ | addEdgesIn _ _ | removeOut _ _ _ | removeIn _ _ _ => none
  | markRoot _ | markObjectRoot _ | forget _ | forgetAll | ask _ => none

/-- The mark of the slice root that the operation is to make. A root that is made only when it is missing is not meant. -/
def newMark? : Edit → Option SliceMark
  | addSliceRoot tag tier => some ⟨tag, tier, false⟩
  | addTierRoot tier => some ⟨.tier tier, some tier, true⟩
  | _ => none

/-- What an operation on nodes that are there, or on the settings, looks at before it writes. -/
def objection? (g : Graph) : Edit → Option GraphError
  | addExceptionExit entry exit =>
    (failure? (g.expect exit Node.isExit .exit)).or (failure? (g.expect entry (·.entryState?.isSome) .entry))
  | setIsConstructor entry _ | addCall entry _ => failure? (g.expect entry (·.entryState?.isSome) .entry)
  | addMember object _ _ | setConstructorNode object _ => failure? (g.expect object Node.isObjectEntry .objectEntry)
  | setArity call _ => failure? (g.expect call Node.isCall .call)
  | setSettings settings => failure? (settings.check.mapError .settings)
  | _ => none

end Edit

namespace Graph

variable {g : Graph} {err : GraphError}

/-- A slice root is refused because its spelling is taken, and then only its creation number is gone. -/
theorem addSlice_of_failure {mark : SliceMark} (h : failure? (g.addSlice mark).1 = some err) :
    err = .duplicateNode ("C" ++ mark.tag.text) ∧ (g.addSlice mark).2 = { g with serial := g.serial + 1 } := by
  unfold addSlice at h ⊢
  by_cases hfound : (g.find? ("C" ++ mark.tag.text)).isSome = true
  · simp only [hfound, if_true, failure?, Option.some.injEq] at h ⊢
    exact ⟨h.symm, trivial⟩
  · simp [hfound, failure?] at h

theorem failure?_expect_ne_duplicate {n : NodeRef} {p : Node → Bool} {expected : NodeLabel} {id : String} :
    failure? (g.expect n p expected) ≠ some (.duplicateNode id) := by
  unfold expect
  cases g.node? n with
  | none => simp [failure?]
  | some a => by_cases hp : p a = true <;> simp [hp, failure?]

end Graph

namespace Edit

variable {g : Graph} {e : Edit} {err : GraphError}

theorem objection?_ne_duplicate (g : Graph) (e : Edit) (id : String) : e.objection? g ≠ some (.duplicateNode id) := by
  cases e with
  | addExceptionExit entry exit =>
    intro h
    rcases Option.or_eq_some_iff.1 h with hexit | ⟨-, hentry⟩
    · exact Graph.failure?_expect_ne_duplicate hexit
    · exact Graph.failure?_expect_ne_duplicate hentry
  | setIsConstructor | addCall | addMember | setConstructorNode | setArity => exact Graph.failure?_expect_ne_duplicate
  | setSettings settings => cases h : settings.check <;> simp [objection?, failure?_mapError, h]
  | _ => simp [objection?]

/-- Apart from new slice roots, an operation is refused exactly if there is an objection, and then it does nothing. -/
theorem refused_by_objection (hg : g.Built) (hmark : e.newMark? = none) :
    e.error? g = e.objection? g ∧ (e.objection? g = none ∨ e.apply g = g) := by
  cases e with
  | addExceptionExit entry exit =>
    cases hexit : g.expect exit Node.isExit .exit <;>
      cases hentry : g.expect entry (·.entryState?.isSome) .entry <;>
        simp [error?, objection?, apply, Graph.addExceptionExit, hexit, hentry, failure?]
  | setIsConstructor entry flag =>
    cases h : g.expect entry (·.entryState?.isSome) .entry <;>
      simp [error?, objection?, apply, Graph.setIsConstructor, h, failure?]
  | addCall entry call =>
    -- The entry is looked at before the tier of the call is asked for, which would leave a memo.
    cases h : g.expect entry (·.entryState?.isSome) .entry <;>
      simp [error?, objection?, apply, Query.addCall, Query.edit, h, failure?]
  | addMember object name member =>
    cases h : g.expect object Node.isObjectEntry .objectEntry <;>
      simp [error?, objection?, apply, Graph.addMember, h, failure?]
  | setConstructorNode object node =>
    cases h : g.expect object Node.isObjectEntry .objectEntry <;>
      simp [error?, objection?, apply, Graph.setConstructorNode, h, failure?]
  | setArity call arity =>
    cases h : g.expect call Node.isCall .call <;> simp [error?, objection?, apply, Graph.setArity, h, failure?]
  | setSettings settings =>
    rw [objection?, failure?_mapError]
    cases h : settings.check <;> simp [error?, apply, Graph.setSettings, h, failure?]
  | ensureTierRoot tier =>
    obtain ⟨n, s, hok, -⟩ := hg.ensureTierRoot_spec tier
    simp [error?, objection?, hok, failure?]
  | addSliceRoot | addTierRoot => simp [newMark?] at hmark
  | _ => exact ⟨rfl, .inl rfl⟩

/-- A new slice root that is refused uses up its creation number. -/
theorem refused_of_newMark? {mark : SliceMark} (hmark : e.newMark? = some mark) (h : e.error? g = some err) :
    err = .duplicateNode ("C" ++ mark.tag.text) ∧ e.apply g = { g with serial := g.serial + 1 } := by
  cases e with
  | addSliceRoot tag tier =>
    cases hmark
    exact Graph.addSlice_of_failure h
  | addTierRoot tier =>
    cases hmark
    exact Graph.addSlice_of_failure h
  | _ => cases hmark

end Edit

/-! ### Settings -/

namespace Graph

variable {g h : Graph}

theorem settings_eq_of_forgetAll_eq (he : h.forgetAll = g.forgetAll) : h.settings = g.settings := by
  change h.forgetAll.settings = g.forgetAll.settings
  rw [he]

theorem settings_addSlice (g : Graph) (mark : SliceMark) : (g.addSlice mark).2.settings = g.settings := by
  unfold addSlice
  by_cases hfound : (g.find? ("C" ++ mark.tag.text)).isSome = true <;> simp [hfound, addNode]

theorem settings_addEdgesOut (g : Graph) (source : NodeRef) (ends : List (NodeRef × EdgeType × Option String)) :
    (g.addEdgesOut source ends).2.settings = g.settings := by
  induction ends generalizing g with
  | nil => rfl
  | cons x rest ih => exact ih _

theorem settings_addEdgesIn (g : Graph) (target : NodeRef) (ends : List (NodeRef × EdgeType)) :
    (g.addEdgesIn target ends).2.settings = g.settings := by
  induction ends generalizing g with
  | nil => rfl
  | cons x rest ih => exact ih _

theorem settings_addCall (g : Graph) (entry call : NodeRef) :
    (Query.addCall entry call g).graph.settings = g.settings := by
  cases h : g.expect entry (·.entryState?.isSome) .entry with
  | error _ => simp [Query.addCall, h]
  | ok _ =>
    simp only [Query.addCall, Query.bind_apply, Query.graph_apply, h, Query.edit, modifyNode]
    exact settings_eq_of_forgetAll_eq (Query.faithful_tier call g).1

end Graph

namespace Edit

variable {g : Graph}

theorem settings_apply {e : Edit} (he : ∀ s, e ≠ .setSettings s) : (e.apply g).settings = g.settings := by
  cases e with
  | setSettings s => exact absurd rfl (he s)
  | addSliceRoot | addTierRoot => exact g.settings_addSlice _
  | ensureTierRoot tier =>
    simp only [apply, Graph.ensureTierRoot]
    split
    · rfl
    · exact g.settings_addSlice _
  | addEdgesOut source ends => exact g.settings_addEdgesOut source ends
  | addEdgesIn target ends => exact g.settings_addEdgesIn target ends
  | addCall entry call => exact g.settings_addCall entry call
  | ask query => exact Graph.settings_eq_of_forgetAll_eq (MemoQuery.refreshed_after g query).1
  | addExceptionExit | setIsConstructor | addMember | setConstructorNode | setArity =>
    simp only [apply, Graph.addExceptionExit, Graph.setIsConstructor, Graph.addMember, Graph.setConstructorNode,
      Graph.setArity]
    split <;> rfl
  | _ => rfl

/-- Settings come into a graph only through their check. -/
theorem valid_settings_apply (e : Edit) (hg : g.settings.Valid) : (e.apply g).settings.Valid := by
  by_cases he : ∃ s, e = .setSettings s
  · obtain ⟨s, rfl⟩ := he
    cases h : s.check with
    | error err => simpa [apply, Graph.setSettings, h] using hg
    | ok _ => simpa [apply, Graph.setSettings, h] using (Settings.check_eq_ok_iff s).1 h
  · rw [settings_apply fun s hs => he ⟨s, hs⟩]
    exact hg

end Edit

theorem Settings.exists_check_eq_error_iff (s : Settings) : (∃ err, s.check = .error err) ↔ ¬ s.Valid := by
  rw [← check_eq_ok_iff]
  cases s.check <;> simp

namespace Graph

variable {g : Graph}

theorem Attained.valid_settings (hg : g.Attained) : g.settings.Valid := by
  induction hg with
  | empty => exact Settings.valid_ofPreset _
  | @withSettings s g hs =>
    cases h : s.check with
    | error err => simp [Graph.withSettings, h] at hs
    | ok _ =>
      simp only [Graph.withSettings, h, Except.ok.injEq] at hs
      subst hs
      exact (Settings.check_eq_ok_iff s).1 h
  | @edit g e _ _ ih => exact e.valid_settings_apply ih

/-- An operation that is refused leaves a graph that can be reached as it was. Only a slice root whose spelling is taken
uses up a creation number. Settings are refused exactly if a limit is out of its range, so a graph never has such
settings. -/
theorem refused_operation_keeps_graph (hg : g.Attained) :
    (∀ (e : Edit) err, e.error? g = some err →
      (e.newMark?.isSome ∧ (∃ id, err = .duplicateNode id) ∧ e.apply g = { g with serial := g.serial + 1 }) ∨
        (e.newMark? = none ∧ (∀ id, err ≠ .duplicateNode id) ∧ e.apply g = g)) ∧
      (∀ s, (∃ err, (g.setSettings s).1 = .error err) ↔ ¬ s.Valid) ∧
      (∀ s, (∃ err, withSettings s = .error err) ↔ ¬ s.Valid) ∧ g.settings.Valid := by
  refine ⟨fun e err h => ?_, fun s => ?_, fun s => ?_, hg.valid_settings⟩
  · cases hmark : e.newMark? with
    | some mark =>
      obtain ⟨herr, happly⟩ := Edit.refused_of_newMark? hmark h
      exact .inl ⟨rfl, ⟨_, herr⟩, happly⟩
    | none =>
      obtain ⟨herror, hkept⟩ := Edit.refused_by_objection hg.built hmark
      rw [herror] at h
      refine .inr ⟨rfl, ?_, ?_⟩
      · rintro id rfl
        exact e.objection?_ne_duplicate g id h
      · apply hkept.resolve_left
        rw [h]
        exact Option.some_ne_none err
  · rw [← s.exists_check_eq_error_iff]
    cases h : s.check <;> simp [setSettings, h]
  · rw [← s.exists_check_eq_error_iff]
    cases h : s.check <;> simp [withSettings, h]

/-- A client root with a call below it, an exit, and an entry. Nothing was asked for yet. -/
def callSite : Graph :=
  Edit.applyAll empty [.addTierRoot .client, .addCallNode none, .addExit none true, .addEntry none,
    .addEdge 0 1 .control none, .addEdge 1 3 .call none]

/-- The free name that is spelled like the tier is refused, a call cannot be recorded at an exit, and an exit cannot be
registered at a call. A limit of one more than the greatest is refused. -/
theorem refused_operation_keeps_graph_callSite :
    callSite.Attained ∧
      Edit.error? callSite (.addSliceRoot (.named "client") none) = some (.duplicateNode "Cclient") ∧
      Edit.apply callSite (.addSliceRoot (.named "client") none) = { callSite with serial := 5 } ∧
      Edit.error? callSite (.addCall 2 1) = some (.kindMismatch "ex3" .entry .exit) ∧
      Edit.apply callSite (.addCall 2 1) = callSite ∧
      Edit.error? callSite (.addExceptionExit 1 2) = some (.kindMismatch "c2" .entry .call) ∧
      Edit.apply callSite (.addExceptionExit 1 2) = callSite ∧
      ∃ err, (callSite.setSettings { Settings.standard with worklistLimit := 100000001 }).1 = .error err := by
  have hattained : callSite.Attained := Attained.empty.applyAll (by decide)
  obtain ⟨hrefused, hsettings, -⟩ := refused_operation_keeps_graph hattained
  have hroot : Edit.error? callSite (.addSliceRoot (.named "client") none) = some (.duplicateNode "Cclient") := by decide
  have hcall : Edit.error? callSite (.addCall 2 1) = some (.kindMismatch "ex3" .entry .exit) := by decide
  have hexit : Edit.error? callSite (.addExceptionExit 1 2) = some (.kindMismatch "c2" .entry .call) := by decide
  refine ⟨hattained, hroot, ?_, hcall, ?_, hexit, ?_, (hsettings _).2 (by decide)⟩
  · rcases hrefused _ _ hroot with ⟨-, -, h⟩ | ⟨h, -⟩
    · exact h
    · cases h
  · rcases hrefused _ _ hcall with ⟨h, -⟩ | ⟨-, -, h⟩
    · cases h
    · exact h
  · rcases hrefused _ _ hexit with ⟨h, -⟩ | ⟨-, -, h⟩
    · cases h
    · exact h

end Graph

end Tierwise
