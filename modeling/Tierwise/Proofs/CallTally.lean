import Tierwise.Proofs.Alteration

/-! # The counters of an entry against its callers

A counter goes up when a call is recorded, by the tier of the caller at that time. The callers can also be counted
later, from the edges. Recording a call leaves the tier on the caller, and no edge that comes or goes changes what is
remembered, so as long as nothing is forgotten both ways of counting agree.
-/

namespace Tierwise

namespace EntryState

/-- The record of an entry with these calls, each given by the tier of its caller. -/
def ofCalls (tiers : List (Option Tier)) : EntryState where
  isCalled := !tiers.isEmpty
  clientTally := UInt32.ofNat (tiers.count (some .client))
  serverTally := UInt32.ofNat (tiers.count (some .server))

theorem recordCall_ofCalls (tiers : List (Option Tier)) (t : Option Tier) :
    (ofCalls tiers).recordCall t = ofCalls (tiers ++ [t]) := by
  rcases t with _ | _ | _ <;> simp [ofCalls, recordCall, List.count_append, UInt32.ofNat_add]

theorem serverCalls_ofCalls {tiers : List (Option Tier)} (hfew : tiers.length < UInt32.size) :
    (ofCalls tiers).serverCalls = tiers.count (some .server) :=
  UInt32.toNat_ofNat_of_lt' (Nat.lt_of_le_of_lt List.count_le_length hfew)

theorem clientCalls_ofCalls {tiers : List (Option Tier)} (hfew : tiers.length < UInt32.size) :
    (ofCalls tiers).clientCalls = tiers.count (some .client) :=
  UInt32.toNat_ofNat_of_lt' (Nat.lt_of_le_of_lt List.count_le_length hfew)

end EntryState

/-- What an entry has on record about its calls. -/
def Node.callRecord (a : Node) : EntryState :=
  (a.entryState?.map fun s => { s with exceptionExits := [], isConstructor := false }).getD {}

theorem Node.callRecord_recordCall {a : Node} (ha : a.entryState?.isSome = true) (t : Option Tier) :
    (a.modifyEntry (EntryState.recordCall t)).callRecord = a.callRecord.recordCall t := by
  obtain ⟨serial, kind⟩ := a
  cases kind with
  | entry | objectEntry => rcases t with _ | _ | _ <;> rfl
  | call | statement | formal | actual | exit | slice => cases ha

namespace Graph

variable {g h k : Graph} {n : NodeRef}

/-- The tier that is remembered of a node. -/
def rememberedTier (g : Graph) (n : NodeRef) : Option Tier := (g.memo n).tier.join

def callRecord (g : Graph) (entry : NodeRef) : EntryState := ((g.node? entry).map Node.callRecord).getD {}

/-- Every tier that is remembered on `g` is remembered on `h`. -/
def KeepsTiers (g h : Graph) : Prop := ∀ n t, (g.memo n).tier = some t → (h.memo n).tier = some t

theorem KeepsTiers.refl (g : Graph) : KeepsTiers g g := fun _ _ ht => ht

theorem KeepsTiers.trans (hgh : KeepsTiers g h) (hhk : KeepsTiers h k) : KeepsTiers g k :=
  fun n t ht => hhk n t (hgh n t ht)

theorem keepsTiers_modifyMemo {f : Memo → Memo} (hf : ∀ t, (g.memo n).tier = some t → (f (g.memo n)).tier = some t) :
    g.KeepsTiers (g.modifyMemo n f) := by
  intro m t ht
  rw [memo_modifyMemo]
  split
  · rename_i hnm
    obtain ⟨rfl, -⟩ := hnm
    exact hf t ht
  · exact ht

theorem bind_memo_tier (g : Graph) (n : NodeRef) : ((g.node? n).bind fun a => a.memo.tier) = (g.memo n).tier := by
  unfold memo
  cases g.node? n <;> rfl

end Graph

namespace Query

open Tierwise.Graph (KeepsTiers)

/-- A tier that is remembered is read, and nothing is written. -/
theorem tier_of_memo {g : Graph} {n : NodeRef} {t : Option Tier} (ht : (g.memo n).tier = some t) :
    (tier n g).value = t ∧ (tier n g).graph = g := by
  rw [← Graph.bind_memo_tier] at ht
  simp [tier, ht]

theorem keepsTiers_resolve (n : NodeRef) (recheck : Bool) : Leaves KeepsTiers (resolve n recheck) := by
  intro g
  rcases graph_resolve n recheck g with hg | ⟨t, -, hg⟩
  · rw [hg]
    exact KeepsTiers.refl g
  · rw [hg]
    exact Graph.keepsTiers_modifyMemo fun _ ht => ht

theorem keepsTiers_tier (n : NodeRef) : Leaves KeepsTiers (tier n) := by
  intro g
  cases ht : (g.memo n).tier with
  | some t =>
    rw [(tier_of_memo ht).2]
    exact KeepsTiers.refl g
  | none =>
    rcases graph_tier n g with hg | hg
    · rw [hg]
      exact KeepsTiers.refl g
    · rw [hg]
      apply Graph.keepsTiers_modifyMemo
      simp [ht]

theorem respected_keepsTiers : Respected KeepsTiers where
  refl := KeepsTiers.refl
  trans := KeepsTiers.trans
  resolve n := keepsTiers_resolve n false
  tier := keepsTiers_tier
  enclosingObjectEntry := by
    intro n g
    rcases graph_enclosingObjectEntry n g with hg | ⟨o, -, hg⟩
    · rw [hg]
      exact KeepsTiers.refl g
    · rw [hg]
      exact Graph.keepsTiers_modifyMemo fun _ ht => ht

/-- The answer is left on the node. -/
theorem memo_tier {g : Graph} {n : NodeRef} (hn : n < g.nodes.size) :
    ((tier n g).graph.memo n).tier = some (tier n g).value := by
  cases ht : (g.memo n).tier with
  | some t =>
    obtain ⟨hvalue, hgraph⟩ := tier_of_memo ht
    rw [hvalue, hgraph, ht]
  | none =>
    rw [← Graph.bind_memo_tier] at ht
    have hgraph : (tier n g).graph = g.modifyMemo n fun m => { m with tier := some (g.tierOf n) } := by
      simp [tier, ht, value_tierOf, graph_tierOf]
    have hvalue : (tier n g).value = g.tierOf n := by simp [tier, ht, value_tierOf]
    rw [hgraph, hvalue, Graph.memo_modifyMemo, if_pos ⟨rfl, by simpa [Graph.node?] using hn⟩]

/-- Tiers that are all remembered are all read. -/
theorem each_tier_of_memo {g : Graph} {callers : List NodeRef} (hcallers : ∀ c ∈ callers, (g.memo c).tier.isSome) :
    (each tier callers g).value = callers.map g.rememberedTier := by
  induction callers with
  | nil => rfl
  | cons c rest ih =>
    obtain ⟨t, ht⟩ := Option.isSome_iff_exists.1 (hcallers c List.mem_cons_self)
    obtain ⟨hvalue, hgraph⟩ := tier_of_memo ht
    have hrest := ih fun d hd => hcallers d (List.mem_cons_of_mem c hd)
    simp [each, hvalue, hgraph, hrest, Graph.rememberedTier, ht]

theorem addCall_of_ok {g : Graph} {entry call : NodeRef} {u : Unit}
    (hok : g.expect entry (·.entryState?.isSome) .entry = .ok u) :
    (addCall entry call g).graph = (tier call g).graph.modifyNode entry
      (Node.modifyEntry (EntryState.recordCall (tier call g).value)) := by
  simp [addCall, edit, hok]

end Query

namespace Edit

/-- The operation takes back what is remembered. -/
def forgets : Edit → Bool
  | forget _ | forgetAll | ask .classifyProgram => true
  | _ => false

/-- The caller of the call of the entry that the operation records, if it records one. -/
def recorded (entry : NodeRef) (g : Graph) : Edit → List NodeRef
  | addCall e call =>
    match (Query.addCall e call g).value with
    | .ok _ => if e = entry then [call] else []
    | .error _ => []
  | _ => []

variable {g : Graph} {e : Edit} {entry : NodeRef}

/-- Only forgetting takes a remembered tier away. -/
theorem keepsTiers_apply (hkeep : e.forgets = false) : g.KeepsTiers (e.apply g) := by
  have hnoted : g.KeepsTiers (e.noted g) := by
    cases e with
    | addCall entry call =>
      simp only [noted]
      split
      · exact Query.keepsTiers_tier call g
      · exact .refl g
    | ask query =>
      cases hreads : query.reads with
      | true => exact Query.respected_keepsTiers.after hreads g
      | false =>
        -- a recheck writes a tag and never a tier
        cases query with
        | resolve n recheck => exact Query.keepsTiers_resolve n recheck g
        | tag n recheck =>
          exact Query.respected_keepsTiers.bind (Query.keepsTiers_resolve n recheck)
            (fun _ => Query.respected_keepsTiers.pure _) g
        | classifyProgram => cases hkeep
        | _ => cases hreads
    | forget | forgetAll => cases hkeep
    | _ => exact .refl g
  intro n t ht
  rw [memo_apply]
  exact hnoted n t ht

theorem callRecord_of_alteration {n : NodeRef} {f : Node → Node} (he : ∀ entry call, e ≠ addCall entry call)
    (h : e.alteration? g = some (n, f)) (a : Node) : (f a).callRecord = a.callRecord := by
  obtain ⟨serial, kind⟩ := a
  cases e with
  | addCall entry call => exact absurd rfl (he entry call)
  | addExceptionExit entry exit =>
    cases h
    cases kind with
    | entry | objectEntry =>
      simp only [Node.modifyEntry, Node.callRecord, Node.entryState?]
      split <;> rfl
    | call | statement | formal | actual | exit | slice => rfl
  | markRoot | markObjectRoot | setIsConstructor | addMember | setConstructorNode | setArity =>
    cases h
    cases kind <;> rfl
  | _ => cases h

/-- Only recording a call writes on the record. -/
theorem callRecord_apply_of_ne (he : ∀ entry call, e ≠ addCall entry call) :
    (e.apply g).callRecord entry = g.callRecord entry := by
  apply view_apply
  · intro memo a
    rfl
  · intro serial kind construct hfresh
    cases kind with
    | entry state | objectEntry state =>
      cases hfresh
      rfl
    | call | statement | formal | actual | exit | slice => rfl
  · intro n f a h
    exact callRecord_of_alteration he h a

theorem callRecord_addCall {other call : NodeRef} {u : Unit}
    (hok : g.expect other (·.entryState?.isSome) .entry = .ok u) :
    ((addCall other call).apply g).callRecord entry =
      if other = entry then (g.callRecord entry).recordCall (Query.tier call g).value else g.callRecord entry := by
  have hnoted : (addCall other call).noted g = (Query.tier call g).graph := by simp [noted, hok]
  have hview : ((Query.tier call g).graph.node? entry).map Node.callRecord = (g.node? entry).map Node.callRecord := by
    rw [← hnoted]
    exact map_node?_noted (fun _ _ => rfl) g _ entry
  rw [apply, Query.addCall_of_ok hok, Graph.callRecord, Graph.node?_modifyNode]
  split
  · rename_i hother
    subst hother
    have hentry : (Query.tier call g).graph.holds (·.entryState?.isSome) other = true := by
      rw [← Graph.holds_forgetAll fun _ _ => rfl, (Query.faithful_tier call g).1, Graph.holds_forgetAll fun _ _ => rfl]
      exact Graph.holds_of_expect_eq_ok hok
    obtain ⟨a, ha, hstate⟩ := Graph.holds_iff.1 hentry
    rw [ha, Option.map_some] at hview
    rw [ha, Graph.callRecord, ← hview]
    exact Node.callRecord_recordCall hstate _
  · rw [hview]
    rfl

/-- An operation leaves the record of an entry as it is, or it records one call more, by the tier that is remembered of
the caller from then on. -/
theorem recorded_cases (hwithin : e.Within g) (entry : NodeRef) :
    e.recorded entry g = [] ∧ (e.apply g).callRecord entry = g.callRecord entry ∨
      ∃ call, e.recorded entry g = [call] ∧ ((e.apply g).memo call).tier.isSome ∧
        (e.apply g).callRecord entry = (g.callRecord entry).recordCall ((e.apply g).rememberedTier call) := by
  cases e with
  | addCall other call =>
    cases hok : g.expect other (·.entryState?.isSome) .entry with
    | error err =>
      left
      simp [recorded, apply, Query.addCall, hok]
    | ok u =>
      have hvalue : (Query.addCall other call g).value = .ok () := by simp [Query.addCall, Query.edit, hok]
      have hmemo : (((addCall other call).apply g).memo call).tier = some (Query.tier call g).value := by
        rw [memo_apply, noted, hok]
        exact Query.memo_tier (hwithin call (by simp [handles]))
      rw [callRecord_addCall hok]
      by_cases hother : other = entry
      · subst hother
        right
        refine ⟨call, by simp [recorded, hvalue], by simp [hmemo], ?_⟩
        rw [if_pos rfl, Graph.rememberedTier, hmemo]
        rfl
      · left
        exact ⟨by simp [recorded, hvalue, hother], if_neg hother⟩
  | _ => exact .inl ⟨rfl, callRecord_apply_of_ne (by simp)⟩

end Edit

namespace Graph

variable {g h : Graph} {entry : NodeRef} {calls : List NodeRef}

/-- The record of the entry is that of these calls. The tiers that the callers had are still remembered. -/
structure Tallied (g : Graph) (entry : NodeRef) (calls : List NodeRef) : Prop where
  remembered : ∀ c ∈ calls, (g.memo c).tier.isSome
  record : g.callRecord entry = EntryState.ofCalls (calls.map g.rememberedTier)

theorem KeepsTiers.rememberedTier_eq {c : NodeRef} (hgh : g.KeepsTiers h) (hc : (g.memo c).tier.isSome) :
    (h.memo c).tier.isSome ∧ h.rememberedTier c = g.rememberedTier c := by
  obtain ⟨t, ht⟩ := Option.isSome_iff_exists.1 hc
  simp [rememberedTier, ht, hgh c t ht]

theorem Tallied.apply {e : Edit} (hg : g.Tallied entry calls) (hwithin : e.Within g) (hkeep : e.forgets = false) :
    (e.apply g).Tallied entry (calls ++ e.recorded entry g) := by
  have hkeeps := Edit.keepsTiers_apply (g := g) hkeep
  have hsame : calls.map (e.apply g).rememberedTier = calls.map g.rememberedTier :=
    List.map_congr_left fun c hc => (hkeeps.rememberedTier_eq (hg.remembered c hc)).2
  have hold : ∀ c ∈ calls, ((e.apply g).memo c).tier.isSome := fun c hc =>
    (hkeeps.rememberedTier_eq (hg.remembered c hc)).1
  rcases Edit.recorded_cases hwithin entry with ⟨hnone, hrecord⟩ | ⟨call, hcall, hmemo, hrecord⟩
  · rw [hnone, List.append_nil]
    exact ⟨hold, by rw [hrecord, hsame, hg.record]⟩
  · -- the new caller comes last, and the tier by which it was recorded is the one that stays on it
    rw [hcall]
    constructor
    · intro c hc
      rcases List.mem_append.1 hc with hc | hc
      · exact hold c hc
      · rw [List.mem_singleton.1 hc]
        exact hmemo
    · rw [hrecord, hg.record, EntryState.recordCall_ofCalls, List.map_append, hsame]
      rfl

theorem Tallied.applyAll {edits : List Edit} (hg : g.Tallied entry calls) (hwithin : Edit.WithinAll g edits)
    (hkeep : ∀ e ∈ edits, e.forgets = false) :
    (Edit.applyAll g edits).Tallied entry (calls ++ Edit.collect (Edit.recorded entry) g edits) := by
  induction edits generalizing g calls with
  | nil =>
    rw [Edit.collect, List.append_nil]
    exact hg
  | cons e rest ih =>
    rw [Edit.collect, ← List.append_assoc]
    exact ih (hg.apply hwithin.1 (hkeep e List.mem_cons_self)) hwithin.2 fun d hd => hkeep d (List.mem_cons_of_mem e hd)

theorem Initial.tallied (hg : g.Initial) (entry : NodeRef) : g.Tallied entry [] := by
  rw [hg.eq_blank]
  exact ⟨by simp, rfl⟩

/-- Callers that match the recorded calls are counted by the tiers that are remembered of them. -/
theorem Tallied.value_countCallers (hg : g.Tallied entry calls) (hmatch : (g.callers entry true).Perm calls)
    (tier : Tier) : (Query.countCallers entry tier g).value = (calls.map g.rememberedTier).count (some tier) := by
  have hcallers : ∀ c ∈ g.callers entry true, (g.memo c).tier.isSome :=
    fun c hc => hg.remembered c (hmatch.mem_iff.1 hc)
  have hcount : (Query.countCallers entry tier g).value =
      (Query.each Query.tier (g.callers entry true) g).value.count (some tier) := rfl
  rw [hcount, Query.each_tier_of_memo hcallers]
  exact (hmatch.map _).count_eq _

/-- After any run in which nothing is forgotten, the record of an entry agrees with its callers, if the edges that lead
into it match the recorded calls one to one and no counter has run over. It does not matter when an edge was drawn or
what became of the tiers of the callers since. -/
theorem recorded_calls_eq_counted_callers {start : Graph} {edits : List Edit} {entry : NodeRef} {state : EntryState}
    (hstart : start.Initial) (hwithin : Edit.WithinAll start edits) (hkeep : ∀ e ∈ edits, e.forgets = false)
    (hmatch : ((Edit.applyAll start edits).callers entry true).Perm (Edit.collect (Edit.recorded entry) start edits))
    (hfew : (Edit.collect (Edit.recorded entry) start edits).length < UInt32.size)
    (hstate : ((Edit.applyAll start edits).node? entry).bind Node.entryState? = some state) :
    let g := Edit.applyAll start edits
    state.serverCalls = (Query.serverCalls entry g).value ∧ state.clientCalls = (Query.clientCalls entry g).value ∧
      (state.isCalled = true ↔ g.callers entry true ≠ []) := by
  intro g
  have hg : g.Tallied entry (Edit.collect (Edit.recorded entry) start edits) :=
    (hstart.tallied entry).applyAll hwithin hkeep
  obtain ⟨a, ha, hentry⟩ := Option.bind_eq_some_iff.1 hstate
  have hrecord : { state with exceptionExits := [], isConstructor := false } =
      EntryState.ofCalls ((Edit.collect (Edit.recorded entry) start edits).map g.rememberedTier) := by
    rw [← hg.record, callRecord, ha]
    simp [Node.callRecord, hentry]
  have htiers : ((Edit.collect (Edit.recorded entry) start edits).map g.rememberedTier).length < UInt32.size := by
    rwa [List.length_map]
  refine ⟨?_, ?_, ?_⟩
  · have hserver := congrArg EntryState.serverCalls hrecord
    change state.serverCalls = _ at hserver
    rw [hserver, EntryState.serverCalls_ofCalls htiers]
    exact (hg.value_countCallers hmatch .server).symm
  · have hclient := congrArg EntryState.clientCalls hrecord
    change state.clientCalls = _ at hclient
    rw [hclient, EntryState.clientCalls_ofCalls htiers]
    exact (hg.value_countCallers hmatch .client).symm
  · have hcalled := congrArg EntryState.isCalled hrecord
    change state.isCalled = _ at hcalled
    rw [hcalled, Ne, ← List.length_eq_zero_iff, hmatch.length_eq]
    simp [EntryState.ofCalls]

/-- An entry is called from a client slice and from a server slice, and then the first caller moves to the server slice.
One call is recorded after its edge is drawn and the other before. -/
def movedCaller : List Edit :=
  [.addTierRoot .client, .addTierRoot .server, .addEntry none, .addCallNode none, .addCallNode none,
    .addEdge 0 3 .control none, .addEdge 1 4 .control none, .addEdge 3 2 .call none, .addCall 2 3, .addCall 2 4,
    .removeOut 0 3 none, .addEdge 1 3 .control none, .ask (.resolve 3 true), .addEdge 4 2 .remoteCall none]

/-- The first caller is found on the server now, but it still counts as a call from the client. -/
theorem recorded_calls_eq_counted_callers_movedCaller :
    let g := Edit.applyAll empty movedCaller
    Edit.WithinAll empty movedCaller ∧ g.tierOf 3 = some .server ∧ (Query.serverCalls 2 g).value = 1 ∧
      (Query.clientCalls 2 g).value = 1 ∧ g.callers 2 true ≠ [] := by
  intro g
  have hwithin : Edit.WithinAll empty movedCaller := by decide
  have hstate : (g.node? 2).bind Node.entryState? = some { isCalled := true, clientTally := 1, serverTally := 1 } := by
    decide
  have hmatch : (g.callers 2 true).Perm (Edit.collect (Edit.recorded 2) empty movedCaller) := by decide
  obtain ⟨hserver, hclient, hcalled⟩ :=
    recorded_calls_eq_counted_callers .empty hwithin (by decide) hmatch (by decide) hstate
  exact ⟨hwithin, by decide, hserver.symm, hclient.symm, hcalled.1 rfl⟩

end Graph

end Tierwise
