import Tierwise.Proofs.Closure.Complete

/-! # Calls and the statements that invoke them

Where only statements and entries invoke calls, a call is found only after its statement, and the statement is found
wherever the call would be. The call is not left out, though: it is found beside its statement when an edge leads to it
while the statement is known already.
-/

namespace Tierwise

theorem Node.role_of_isStatement {n : Node} (h : n.isStatement = true) : n.role = .ordinary := by
  unfold isStatement at h
  unfold role
  split at h <;> simp_all

theorem Node.role_of_isEntry {n : Node} (h : n.isEntry = true) : n.role = .ordinary := by
  unfold isEntry at h
  unfold role
  split at h <;> simp_all

theorem Node.isEntry_eq_false_of_isStatement {n : Node} (h : n.isStatement = true) : n.isEntry = false := by
  unfold isStatement at h
  unfold isEntry
  split at h <;> simp_all

namespace Graph

variable {g : Graph} {origin n up : NodeRef}

theorem role_eq_ordinary_of_holds {p : Node → Bool} (hp : ∀ {node : Node}, p node = true → node.role = .ordinary)
    (h : g.holds p n = true) : g.role n = .ordinary := by
  obtain ⟨node, hnode, hpn⟩ := holds_iff.1 h
  simp [role, hnode, hp hpn]

/-- Every control edge into a call comes from a statement or an entry. -/
def CallsInvoked (g : Graph) : Prop :=
  ∀ e ∈ g.edges.live, e.type = .control → g.holds Node.isCall e.target = true →
    g.holds Node.isStatement e.source = true ∨ g.holds Node.isEntry e.source = true
deriving Decidable

theorem exists_edge_of_controller? (h : g.controller? n = some up) :
    ∃ e ∈ g.edges.live, e.target = n ∧ e.type = .control ∧ e.source = up :=
  mem_inNodes_control.1 (List.mem_of_mem_head? h)

theorem CallsInvoked.controller (hg : g.CallsInvoked) (hn : g.role n = .call) (h : g.controller? n = some up) :
    g.holds Node.isStatement up = true ∨ g.holds Node.isEntry up = true := by
  obtain ⟨e, he, rfl, htype, rfl⟩ := exists_edge_of_controller? h
  exact hg e he htype (role_eq_call_iff.1 hn)

/-- Then no call stands in an argument. -/
theorem CallsInvoked.argumentSlots (hg : g.CallsInvoked) (hn : g.role n = .call) : g.argumentSlots n = [] := by
  apply argumentSlots_eq_nil
  rintro e he htype hactual rfl
  have hordinary : g.role e.source = .ordinary := by
    rcases hg e he htype (role_eq_call_iff.1 hn) with hs | hs
    · exact role_eq_ordinary_of_holds Node.role_of_isStatement hs
    · exact role_eq_ordinary_of_holds Node.role_of_isEntry hs
  rw [← role_eq_actual_iff, hordinary] at hactual
  cases hactual

/-- What invokes the node, if anything, is an entry, or a statement that is the origin or among the nodes `before`. -/
def InvokedBefore (g : Graph) (origin : NodeRef) (before : List NodeRef) (n : NodeRef) : Prop :=
  ∀ up, g.controller? n = some up →
    g.holds Node.isEntry up = true ∨ g.holds Node.isStatement up = true ∧ (up = origin ∨ up ∈ before)

/-- Every call in the list comes after the statement that invokes it. -/
def CallsInOrder (g : Graph) (origin : NodeRef) (members : List NodeRef) : Prop :=
  ∀ before n after, members = before ++ n :: after → g.role n = .call → g.InvokedBefore origin before n

theorem CallsInOrder.concat {members : List NodeRef} (h : g.CallsInOrder origin members)
    (hn : g.role n = .call → g.InvokedBefore origin members n) : g.CallsInOrder origin (members ++ [n]) := by
  intro before m after heq hm
  rcases List.eq_nil_or_concat after with rfl | ⟨after, x, rfl⟩
  · obtain ⟨rfl, hlast⟩ := List.append_inj' heq rfl
    cases hlast
    exact hn hm
  · rw [List.concat_eq_append, ← List.cons_append, ← List.append_assoc] at heq
    exact h before m after (List.append_inj' heq rfl).1 hm

end Graph

namespace Closure

variable {g : Graph} {origin n : NodeRef} {crossTier keepActuals : Bool} {c d : Closure} {e : Edge} {popped : List Edge}

theorem callsInOrder_add (h : g.CallsInOrder origin c.members)
    (hn : g.role n = .call → g.InvokedBefore origin c.members n) : g.CallsInOrder origin (c.add n).members := by
  unfold add
  split
  · exact h
  · exact h.concat hn

theorem callsInOrder_move (hg : g.CallsInvoked) (horigin : c.origin = origin) (h : g.CallsInOrder origin c.members)
    (hmove : Move g keepActuals c e d) : g.CallsInOrder origin d.members := by
  cases hmove with
  | keep hrole => exact callsInOrder_add h fun hcall => (nomatch hrole.symm.trans hcall)
  | pass => exact h
  | climb => simpa using h
  | stuck _ _ _ hslots => exact callsInOrder_add h fun hcall => absurd (hg.argumentSlots hcall) hslots
  | call hrole hknown =>
    refine callsInOrder_add h fun _ up hup => ?_
    rcases hg.controller hrole hup with hstatement | hentry
    · refine (hknown up hup).imp_right fun hknows => ⟨hstatement, ?_⟩
      rwa [knows_iff, horigin] at hknows
    · exact .inl hentry
  | @invoke up hrole hup hentry =>
    rw [members_follow]
    refine callsInOrder_add h fun hcall => ?_
    have hstatement := (hg.controller hrole hup).resolve_right (by simp [hentry])
    exact nomatch (Graph.role_eq_ordinary_of_holds Node.role_of_isStatement hstatement).symm.trans hcall
  | bind hrole =>
    rw [members_follow]
    exact callsInOrder_add h fun hcall => (nomatch hrole.symm.trans hcall)
  | ignore => exact h
  | plain hrole =>
    rw [members_follow]
    exact callsInOrder_add h fun hcall => (nomatch hrole.symm.trans hcall)

theorem After.callsInOrder (hg : g.CallsInvoked) (h : After g origin crossTier keepActuals popped c) :
    g.CallsInOrder origin c.members := by
  induction h with
  | start =>
    intro before n after heq
    simp [Closure.start] at heq
  | @step popped c e rest hc _ ih =>
    apply callsInOrder_move hg _ _ (move_step g keepActuals { c with queue := rest } e)
    · exact hc.sound.origin_eq
    · exact ih

end Closure

/-- Where only statements and entries invoke calls, a call that is found has nothing or an entry to invoke it, or its
statement is the origin or was found before. With a limit that is at least the number of edges, the statement that
invokes a call is the origin or is found whenever an edge carries a value to the call, out of the origin or out of a
member that is no dead end. -/
theorem Graph.call_found_after_invoker {g : Graph} {origin : NodeRef} {crossTier keepActuals : Bool}
    (hg : g.CallsInvoked) :
    let found := (Query.dependents origin crossTier keepActuals g).value
    (∀ before call after, found = before ++ call :: after → g.holds Node.isCall call = true →
      ∀ up, g.controller? call = some up →
        g.holds Node.isEntry up = true ∨ g.holds Node.isStatement up = true ∧ (up = origin ∨ up ∈ before)) ∧
    (g.edgeCount ≤ g.worklistLimit → ∀ e ∈ g.edges.live, Carries crossTier origin e →
      (e.source = origin ∨ e.source ∈ found ∧ ¬g.DeadEnd keepActuals e.source) →
      g.holds Node.isCall e.target = true →
      ∀ up, g.controller? e.target = some up → g.holds Node.isStatement up = true → up = origin ∨ up ∈ found) := by
  constructor
  · obtain ⟨popped, d, hd, -, hrun⟩ := Closure.after_dependents g origin crossTier keepActuals
    simp only [Query.value_dependents, hrun]
    intro before call after heq hcall
    exact hd.callsInOrder hg before call after heq (role_eq_call_iff.2 hcall)
  · intro hlimit
    obtain ⟨popped, d, hd, hqueue, hmembers⟩ := Closure.exhausted_dependents hlimit origin crossTier keepActuals
    simp only [Query.value_dependents, hmembers]
    intro e he hcarries hsource hcall up hup hstatement
    have hsettled := hd.complete.settled e (hd.complete.followed hqueue he hcarries hsource)
    have hentry := holds_eq_false_of_holds Node.isEntry_eq_false_of_isStatement hstatement
    have hknown := ((Closure.settled_call (role_eq_call_iff.2 hcall)).1 hsettled).2 up hup hentry
    rwa [Closure.knows_iff, hd.sound.origin_eq] at hknown

/-- Node 0 feeds a statement and, after it, the call that the statement invokes. -/
def Graph.sharedInvoker : Graph :=
  let node (kind : NodeKind) : Node := { serial := 0, kind }
  { nodes := #[node .statement, node .statement, node (.call none)]
    edges := ((EdgeStore.add {} 1 2 .control none).add 0 1 .data none).add 0 2 .data none }

theorem Graph.call_found_after_invoker_sharedInvoker :
    sharedInvoker.CallsInvoked ∧ (Query.dependents 0 false false sharedInvoker).value = [1] ++ 2 :: [] ∧
      ∀ up, sharedInvoker.controller? 2 = some up →
        sharedInvoker.holds Node.isEntry up = true ∨
          sharedInvoker.holds Node.isStatement up = true ∧ (up = 0 ∨ up ∈ [1]) := by
  have hg : sharedInvoker.CallsInvoked := by decide
  have hfound : (Query.dependents 0 false false sharedInvoker).value = [1] ++ 2 :: [] := by decide
  exact ⟨hg, hfound, (call_found_after_invoker hg).1 [1] 2 [] hfound (by decide)⟩

/-- A statement does not stand for its call alone: both are found. -/
theorem Graph.call_found_beside_invoker :
    sharedInvoker.CallsInvoked ∧ sharedInvoker.holds Node.isCall 2 = true ∧ sharedInvoker.controller? 2 = some 1 ∧
      sharedInvoker.holds Node.isStatement 1 = true ∧ sharedInvoker.holds Node.isEntry 1 = false ∧
      1 ∈ (Query.dependents 0 false false sharedInvoker).value ∧
      2 ∈ (Query.dependents 0 false false sharedInvoker).value := by
  decide

end Tierwise
