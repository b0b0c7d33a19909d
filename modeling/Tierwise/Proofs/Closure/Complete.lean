import Tierwise.Proofs.Closure.Move

/-! # What a dependence closure cannot leave out

Once the queue is empty, every edge out of the origin and out of a member that is no dead end was followed, and an edge
that was followed has left its mark. Where no call and no parameter comes in between, the closure is what data edges
reach, no more and no less.
-/

namespace Tierwise

namespace Closure

variable {g : Graph} {origin n : NodeRef} {crossTier keepActuals : Bool} {c d : Closure} {e : Edge} {popped : List Edge}

/-! ### Edges that were followed -/

/-- The closure went on outside of the arguments that a call stands in. A call that could not be left is known. -/
def Resumed (g : Graph) (followed : List Edge) (c : Closure) (call : NodeRef) : Prop :=
  (∀ up, g.outermostCall call = .ok up →
    g.outEdges up (some .data) ⊆ followed ∧ g.inEdges call (some .control) ⊆ followed) ∧
  ∀ err, g.outermostCall call = .error err → c.knows call = true

/-- What is left to see of an edge that was followed. A call stands for itself where nothing, an entry or the origin
invokes it, and what else invokes a call stands for the call. -/
def Settled (g : Graph) (keepActuals : Bool) (followed : List Edge) (c : Closure) (e : Edge) : Prop :=
  match g.role e.target with
  | .actual =>
    (keepActuals = true → c.knows e.target = true) ∧
    (keepActuals = false →
      ∀ call, g.controller? e.target = some call → g.argumentSlots call ≠ [] → c.Resumed g followed call)
  | .call =>
    ((∀ up, g.controller? e.target = some up → g.holds Node.isEntry up = true ∨ up = c.origin) →
      c.knows e.target = true) ∧
    ∀ up, g.controller? e.target = some up → g.holds Node.isEntry up = false → c.knows up = true
  | .formal => g.role e.source = .actual → c.knows e.target = true
  | .ordinary => c.knows e.target = true

section Roles

variable {followed : List Edge}

theorem settled_actual (h : g.role e.target = .actual) : c.Settled g keepActuals followed e ↔
    (keepActuals = true → c.knows e.target = true) ∧
    (keepActuals = false →
      ∀ call, g.controller? e.target = some call → g.argumentSlots call ≠ [] → c.Resumed g followed call) := by
  simp only [Settled, h]

theorem settled_call (h : g.role e.target = .call) : c.Settled g keepActuals followed e ↔
    ((∀ up, g.controller? e.target = some up → g.holds Node.isEntry up = true ∨ up = c.origin) →
      c.knows e.target = true) ∧
    ∀ up, g.controller? e.target = some up → g.holds Node.isEntry up = false → c.knows up = true := by
  simp only [Settled, h]

theorem settled_formal (h : g.role e.target = .formal) : c.Settled g keepActuals followed e ↔
    (g.role e.source = .actual → c.knows e.target = true) := by
  simp only [Settled, h]

theorem settled_ordinary (h : g.role e.target = .ordinary) :
    c.Settled g keepActuals followed e ↔ c.knows e.target = true := by
  simp only [Settled, h]

/-- A closure that has grown does not unsettle an edge. -/
theorem Settled.mono (h : c.Settled g keepActuals followed e) (hd : Grown g keepActuals popped c d)
    (hf : followed ⊆ popped ++ d.queue) : d.Settled g keepActuals (popped ++ d.queue) e := by
  cases hrole : g.role e.target with
  | actual =>
    rw [settled_actual hrole] at h ⊢
    refine ⟨fun hkeep => hd.knows (h.1 hkeep), fun hkeep call hcall hslots => ?_⟩
    obtain ⟨hok, herr⟩ := h.2 hkeep call hcall hslots
    refine ⟨fun up hup => ?_, fun err hup => hd.knows (herr err hup)⟩
    exact ⟨List.Subset.trans (hok up hup).1 hf, List.Subset.trans (hok up hup).2 hf⟩
  | call =>
    rw [settled_call hrole] at h ⊢
    rw [hd.origin]
    exact ⟨fun hup => hd.knows (h.1 hup), fun up hup hentry => hd.knows (h.2 up hup hentry)⟩
  | formal =>
    rw [settled_formal hrole] at h ⊢
    exact fun hsource => hd.knows (h hsource)
  | ordinary =>
    rw [settled_ordinary hrole] at h ⊢
    exact hd.knows h

end Roles

/-- Following an edge settles it. -/
theorem settled_of_move (h : c.Tracked g popped) (hmove : Move g keepActuals c e d) :
    d.Settled g keepActuals (popped ++ d.queue) e := by
  have hgrown := Grown.move h hmove
  cases hmove with
  | keep hrole hkeep =>
    rw [settled_actual hrole]
    simp [hkeep, knows_add]
  | pass hrole hkeep hslots =>
    rw [settled_actual hrole, hkeep]
    exact ⟨nofun, fun _ call hcall hne => absurd (hslots call hcall) hne⟩
  | @climb call up hrole hkeep hcall hne hup =>
    rw [settled_actual hrole, hkeep]
    refine ⟨nofun, fun _ call' hcall' _ => ?_⟩
    obtain rfl : call = call' := Option.some.inj (hcall.symm.trans hcall')
    refine ⟨fun up' hup' => ?_, fun err herr => (nomatch hup.symm.trans herr)⟩
    obtain rfl : up = up' := Except.ok.inj (hup.symm.trans hup')
    obtain ⟨htracked, hout⟩ := h.push fun e (he : e ∈ g.outEdges up (some .data)) => Graph.live_of_mem_edgesAt he
    obtain ⟨-, hin⟩ := htracked.push fun e (he : e ∈ g.inEdges call (some .control)) => Graph.live_of_mem_edgesAt he
    exact ⟨List.Subset.trans hout (followed_subset queue_subset_push), hin⟩
  | @stuck call err hrole hkeep hcall hne herr =>
    rw [settled_actual hrole, hkeep]
    refine ⟨nofun, fun _ call' hcall' _ => ?_⟩
    obtain rfl : call = call' := Option.some.inj (hcall.symm.trans hcall')
    exact ⟨fun up hup => (nomatch hup.symm.trans herr), fun _ _ => knows_add.2 (.inl rfl)⟩
  | call hrole hup =>
    rw [settled_call hrole]
    refine ⟨fun _ => knows_add.2 (.inl rfl), fun up hcontrol hentry => knows_add.2 (.inr ?_)⟩
    exact (hup up hcontrol).resolve_left (by simp [hentry])
  | @invoke up hrole hcontrol hentry hnew =>
    rw [settled_call hrole]
    refine ⟨fun hup => ?_, fun up' hcontrol' _ => knows_follow.2 (.inl ?_)⟩
    · -- The origin is known from the start, and what invokes this call is not.
      rcases hup up hcontrol with hyes | horigin
      · simp [hentry] at hyes
      · rw [hgrown.origin] at horigin
        simp [knows, horigin] at hnew
    · exact Option.some.inj (hcontrol'.symm.trans hcontrol)
  | bind hrole =>
    rw [settled_formal hrole]
    exact fun _ => knows_follow.2 (.inl rfl)
  | ignore hrole hsource =>
    rw [settled_formal hrole]
    exact fun hactual => absurd hactual hsource
  | plain hrole =>
    rw [settled_ordinary hrole]
    exact knows_follow.2 (.inl rfl)

/-! ### Whole runs -/

/-- What holds of a closure after the edges `popped` were taken from its queue. -/
structure Complete (g : Graph) (crossTier keepActuals : Bool) (origin : NodeRef) (popped : List Edge) (c : Closure) :
    Prop where
  tracked : c.Tracked g popped
  seeded : ∀ e ∈ g.edges.live, e.source = origin → Graph.Carries crossTier origin e → e ∈ popped ++ c.queue
  settled : ∀ e ∈ popped, c.Settled g keepActuals (popped ++ c.queue) e
  expanded : ∀ n ∈ c.members, ¬g.DeadEnd keepActuals n → g.outEdges n (some .data) ⊆ popped ++ c.queue

theorem complete_start (g : Graph) (origin : NodeRef) (crossTier keepActuals : Bool) :
    (start g origin crossTier).Complete g crossTier keepActuals origin [] := by
  let seeds := (g.outEdges origin).filter fun e => e.type == .data || (crossTier && e.type == .remoteData)
  have hnone : Tracked g [] { origin } := by simp [Tracked]
  have hlive : ∀ e ∈ seeds, e ∈ g.edges.live := fun e he => Graph.live_of_mem_edgesAt (List.mem_filter.1 he).1
  obtain ⟨htracked, hseeds⟩ := hnone.push hlive
  refine ⟨htracked, fun e he hsource hcarries => hseeds ?_, by simp, by simp [start]⟩
  refine List.mem_filter.2 ⟨Graph.mem_edgesAt.2 ⟨he, hsource, .inl rfl⟩, ?_⟩
  rcases hcarries with hdata | ⟨hcross, hremote, -⟩
  · simp [hdata]
  · simp [hcross, hremote]

/-- Following the edge at the front of the queue keeps a closure complete. -/
theorem Complete.step {rest : List Edge} (hc : c.Complete g crossTier keepActuals origin popped)
    (hqueue : c.queue = e :: rest) :
    (step g keepActuals { c with queue := rest } e).Complete g crossTier keepActuals origin (popped ++ [e]) := by
  have hmoved : popped ++ c.queue = popped ++ [e] ++ rest := by
    rw [hqueue, List.append_assoc, List.singleton_append]
  have htracked : Tracked g (popped ++ [e]) { c with queue := rest } := by
    intro x hx hi
    rw [← hmoved]
    exact hc.tracked x hx hi
  have hmove := move_step g keepActuals { c with queue := rest } e
  have hgrown := Grown.move htracked hmove
  have hkept : popped ++ c.queue ⊆ popped ++ [e] ++ (Closure.step g keepActuals { c with queue := rest } e).queue := by
    rw [hmoved]
    exact followed_subset hgrown.queue
  refine ⟨hgrown.tracked, fun x hx hs hcarries => hkept (hc.seeded x hx hs hcarries), ?_, ?_⟩
  · intro x hx
    rcases List.mem_append.1 hx with hx | hx
    · have hold : Settled g keepActuals (popped ++ c.queue) { c with queue := rest } x := hc.settled x hx
      exact hold.mono hgrown hkept
    · rw [List.mem_singleton.1 hx]
      exact settled_of_move htracked hmove
  · intro n hn hend
    rcases hgrown.fresh n hn with hold | hdead | hout
    · exact List.Subset.trans (hc.expanded n hold hend) hkept
    · exact absurd hdead hend
    · exact hout

theorem After.complete (h : After g origin crossTier keepActuals popped c) :
    c.Complete g crossTier keepActuals origin popped := by
  induction h with
  | start => exact complete_start g origin crossTier keepActuals
  | step _ hqueue ih => exact ih.step hqueue

/-- Where the limit is at least the number of edges, the queue is empty in the end. -/
theorem exhausted_dependents (hlimit : g.edgeCount ≤ g.worklistLimit) (origin : NodeRef) (crossTier keepActuals : Bool) :
    ∃ popped d, After g origin crossTier keepActuals popped d ∧ d.queue = [] ∧
      (g.dependents origin crossTier keepActuals).members = d.members := by
  obtain ⟨popped, d, hd, hend, hrun⟩ := after_dependents g origin crossTier keepActuals
  refine ⟨popped, d, hd, ?_, by rw [hrun]⟩
  rcases hend with hempty | hfull
  · exact hempty
  · have hlength := hd.sound.length_le
    exact List.length_eq_zero_iff.1 (by omega)

end Closure

namespace Graph

/-- Data edges lead from `origin` to the node. Remote data may take the first step if tiers may be crossed. -/
inductive Reached (g : Graph) (crossTier : Bool) (origin : NodeRef) : NodeRef → Prop
  | first {e : Edge} : e ∈ g.edges.live → e.source = origin → Carries crossTier origin e →
      Reached g crossTier origin e.target
  | next {e : Edge} : Reached g crossTier origin e.source → e ∈ g.edges.live → e.type = .data →
      Reached g crossTier origin e.target

/-- The nodes `found` for `origin` account for the end of an edge. A call may be accounted for by what invokes it, an
actual parameter need not be found unless these are kept, and a formal one only where an actual one is bound to it. -/
structure Accounts (g : Graph) (keepActuals : Bool) (origin : NodeRef) (found : List NodeRef) (e : Edge) : Prop where
  ordinary : g.Ordinary e.target → e.target = origin ∨ e.target ∈ found
  call : g.holds Node.isCall e.target = true →
    (e.target = origin ∨ e.target ∈ found) ∨ ∃ up, g.controller? e.target = some up ∧ (up = origin ∨ up ∈ found)
  actual : g.holds Node.isActual e.target = true → keepActuals = true → e.target = origin ∨ e.target ∈ found
  formal : g.holds Node.isFormal e.target = true → g.holds Node.isActual e.source = true →
    e.target = origin ∨ e.target ∈ found

end Graph

namespace Closure

variable {g : Graph} {origin n : NodeRef} {crossTier keepActuals : Bool} {c : Closure} {e : Edge} {popped : List Edge}

theorem Settled.accounts {followed : List Edge} (h : c.Settled g keepActuals followed e) :
    g.Accounts keepActuals c.origin c.members e where
  ordinary := fun hrole => knows_iff.1 ((settled_ordinary (Graph.role_eq_ordinary_iff.2 hrole)).1 h)
  call := by
    intro hrole
    obtain ⟨halone, hinvoked⟩ := (settled_call (Graph.role_eq_call_iff.2 hrole)).1 h
    cases hup : g.controller? e.target with
    | none => exact .inl (knows_iff.1 (halone (by simp [hup])))
    | some up =>
      cases hentry : g.holds Node.isEntry up with
      | true => exact .inl (knows_iff.1 (halone (by simp [hup, hentry])))
      | false => exact .inr ⟨up, rfl, knows_iff.1 (hinvoked up hup hentry)⟩
  actual := fun hrole hkeep => knows_iff.1 (((settled_actual (Graph.role_eq_actual_iff.2 hrole)).1 h).1 hkeep)
  formal := fun hrole hsource =>
    knows_iff.1 ((settled_formal (Graph.role_eq_formal_iff.2 hrole)).1 h (Graph.role_eq_actual_iff.2 hsource))

/-- An edge out of the origin, or out of a member that is no dead end, was followed. -/
theorem Complete.followed (hc : c.Complete g crossTier keepActuals origin popped) (hqueue : c.queue = [])
    (he : e ∈ g.edges.live) (hcarries : Graph.Carries crossTier origin e)
    (hsource : e.source = origin ∨ e.source ∈ c.members ∧ ¬g.DeadEnd keepActuals e.source) : e ∈ popped := by
  have hmem : e ∈ popped ++ c.queue := by
    by_cases horigin : e.source = origin
    · exact hc.seeded e he horigin hcarries
    · obtain ⟨hmember, hend⟩ := hsource.resolve_left horigin
      have hdata : e.type = .data := hcarries.resolve_right fun h => horigin h.2.2
      exact hc.expanded e.source hmember hend (Graph.mem_edgesAt_some.2 ⟨he, rfl, hdata⟩)
  rwa [hqueue, List.append_nil] at hmem

theorem step_of_ordinary (h : g.Ordinary e.target) : step g keepActuals c e = c.follow g e.target := by
  unfold step
  simp [h.1, h.2.1, h.2.2]

/-- Where data edges reach ordinary nodes only, a closure stays among the nodes that they reach. -/
theorem After.reached (h : After g origin crossTier keepActuals popped c)
    (hplain : ∀ n, g.Reached crossTier origin n → g.Ordinary n) :
    c.Within (fun e => g.Reached crossTier origin e.target) (g.Reached crossTier origin) := by
  induction h with
  | start =>
    unfold Closure.start
    refine Within.push ⟨by simp, by simp⟩ fun e he => ?_
    obtain ⟨hout, htype⟩ := List.mem_filter.1 he
    obtain ⟨hlive, hsource, -⟩ := Graph.mem_edgesAt.1 hout
    refine .first hlive hsource ?_
    simp only [Bool.or_eq_true, Bool.and_eq_true, beq_iff_eq] at htype
    exact htype.imp_right fun hremote => ⟨hremote.1, hremote.2, hsource⟩
  | @step popped c e rest _ hqueue ih =>
    have he : g.Reached crossTier origin e.target := ih.queue e (by simp [hqueue])
    rw [step_of_ordinary (hplain _ he)]
    refine (ih.pop hqueue).follow fun _ => ⟨he, fun x hx => ?_⟩
    obtain ⟨hlive, hsource, hdata⟩ := Graph.mem_edgesAt_some.1 hx
    refine .next ?_ hlive hdata
    have hsource : x.source = e.target := hsource
    rwa [hsource]

section Exhausted

variable (h : After g origin crossTier keepActuals popped c) (hqueue : c.queue = [])
  (hclimb : ∀ n, ∃ up, g.outermostCall n = .ok up)

include h hqueue hclimb

/-- A member that is neither a call nor an actual parameter is no dead end if every climb succeeds. -/
theorem After.accounts (he : e ∈ g.edges.live) (hcarries : Graph.Carries crossTier origin e)
    (hsource : e.source = origin ∨
      e.source ∈ c.members ∧ g.holds Node.isCall e.source = false ∧ g.holds Node.isActual e.source = false) :
    g.Accounts keepActuals origin c.members e := by
  rw [← h.sound.origin_eq]
  refine (h.complete.settled e (h.complete.followed hqueue he hcarries (hsource.imp_right ?_))).accounts
  rintro ⟨hmember, hcall, hactual⟩
  refine ⟨hmember, ?_⟩
  rintro (hdead | ⟨-, hdead⟩ | ⟨err, hdead⟩)
  · simp [Graph.role_eq_call_iff.1 hdead] at hcall
  · simp [Graph.role_eq_actual_iff.1 hdead] at hactual
  · obtain ⟨up, hup⟩ := hclimb e.source
    cases hup.symm.trans hdead

theorem After.known_of_reached (hplain : ∀ n, g.Reached crossTier origin n → g.Ordinary n)
    (hreached : g.Reached crossTier origin n) : n = origin ∨ n ∈ c.members := by
  induction hreached with
  | first he hsource hcarries =>
    exact (h.accounts hqueue hclimb he hcarries (.inl hsource)).ordinary (hplain _ (.first he hsource hcarries))
  | next hreached he hdata ih =>
    have hordinary := hplain _ hreached
    refine (h.accounts hqueue hclimb he (.inl hdata) (ih.imp_right fun hmember => ?_)).ordinary ?_
    · exact ⟨hmember, hordinary.1, hordinary.2.1⟩
    · exact hplain _ (.next hreached he hdata)

end Exhausted

end Closure

/-- A closure with a limit that is at least the number of edges, in a graph where every climb succeeds, accounts for the
end of every edge that carries a value out of the origin or out of a member that is neither a call nor an actual
parameter. Where data edges reach neither calls nor parameters, they reach the members and nothing else but the origin. -/
theorem Graph.dependents_complete {g : Graph} {origin : NodeRef} {crossTier keepActuals : Bool}
    (hlimit : g.edgeCount ≤ g.worklistLimit) (hclimb : ∀ n, ∃ up, g.outermostCall n = .ok up) :
    let found := (Query.dependents origin crossTier keepActuals g).value
    (∀ e ∈ g.edges.live, Carries crossTier origin e →
      (e.source = origin ∨
        e.source ∈ found ∧ g.holds Node.isCall e.source = false ∧ g.holds Node.isActual e.source = false) →
      g.Accounts keepActuals origin found e) ∧
    ((∀ n, g.Reached crossTier origin n → g.Ordinary n) →
      ∀ n, n ∈ found ↔ n ≠ origin ∧ g.Reached crossTier origin n) := by
  obtain ⟨popped, d, hd, hqueue, hmembers⟩ := Closure.exhausted_dependents hlimit origin crossTier keepActuals
  simp only [Query.value_dependents, hmembers]
  refine ⟨fun e he hcarries => hd.accounts hqueue hclimb he hcarries, fun hplain n => ⟨fun hn => ⟨?_, ?_⟩, ?_⟩⟩
  · rintro rfl
    exact hd.sound.origin_notMem hn
  · exact (hd.reached hplain).members n hn
  · rintro ⟨hne, hreached⟩
    exact (hd.known_of_reached hqueue hclimb hplain hreached).resolve_left hne

/-- The value of node 0 is an argument of the call 4, which stands in an argument of the call 2. What comes of it is
used by node 6, and node 0 itself is used by node 1, which invokes the outer call. Nodes 6 and 7 use each other. -/
def Graph.nestedCalls : Graph :=
  let node (kind : NodeKind) : Node := { serial := 0, kind }
  let control := [(1, 2), (2, 3), (3, 4), (4, 5)].map fun a => (a.1, a.2, EdgeType.control)
  let data := [(0, 5), (2, 6), (0, 1), (6, 7), (7, 6)].map fun a => (a.1, a.2, EdgeType.data)
  { nodes := #[node .statement, node .statement, node (.call none), node (.actual .inward none), node (.call none),
      node (.actual .inward none), node .statement, node .statement]
    edges := (control ++ data).foldl (fun s a => s.add a.1 a.2.1 a.2.2 none) {} }

theorem Graph.exists_outermostCall_nestedCalls (n : NodeRef) : ∃ up, nestedCalls.outermostCall n = .ok up := by
  by_cases hn : n = 4
  · have hup : nestedCalls.climbOut? nestedCalls.callChainLimit [4] 4 = some 2 := by decide
    exact ⟨2, by rw [hn, outermostCall, hup]⟩
  · have hslots : ∀ e ∈ nestedCalls.edges.live, e.type = .control →
        nestedCalls.holds Node.isActual e.source = true → e.target = 4 := by decide
    exact ⟨n, outermostCall_of_argumentSlots_eq_nil
      (argumentSlots_eq_nil fun e he htype hactual ht => hn (ht.symm.trans (hslots e he htype hactual)))⟩

theorem Graph.eq_of_reached_nestedCalls {n : NodeRef} (h : nestedCalls.Reached false 6 n) : n = 6 ∨ n = 7 := by
  have hstep : ∀ e ∈ nestedCalls.edges.live, e.type = .data → e.source = 6 ∨ e.source = 7 →
      e.target = 6 ∨ e.target = 7 := by decide
  induction h with
  | first he hsource hcarries => exact hstep _ he (hcarries.resolve_right fun hremote => nomatch hremote.1) (.inl hsource)
  | next _ he hdata ih => exact hstep _ he hdata ih

theorem Graph.dependents_complete_nestedCalls :
    nestedCalls.edgeCount ≤ nestedCalls.worklistLimit ∧ (∀ n, ∃ up, nestedCalls.outermostCall n = .ok up) ∧
      (Query.dependents 0 false false nestedCalls).value = [1, 6, 3, 7] ∧
      (∀ e ∈ nestedCalls.edges.live, Carries false 0 e →
        (e.source = 0 ∨ e.source ∈ [1, 6, 3, 7] ∧ nestedCalls.holds Node.isCall e.source = false ∧
          nestedCalls.holds Node.isActual e.source = false) →
        nestedCalls.Accounts false 0 [1, 6, 3, 7] e) ∧
      (Query.dependents 6 false false nestedCalls).value = [7] ∧
      (∀ n, nestedCalls.Reached false 6 n → nestedCalls.Ordinary n) ∧
      ∀ n, n ∈ [7] ↔ n ≠ 6 ∧ nestedCalls.Reached false 6 n := by
  have hlimit : nestedCalls.edgeCount ≤ nestedCalls.worklistLimit := by decide
  have hfound : (Query.dependents 0 false false nestedCalls).value = [1, 6, 3, 7] := by decide
  have hcycle : (Query.dependents 6 false false nestedCalls).value = [7] := by decide
  have hplain : ∀ n, nestedCalls.Reached false 6 n → nestedCalls.Ordinary n := by
    intro n hn
    rcases eq_of_reached_nestedCalls hn with rfl | rfl <;> exact ⟨by decide, by decide, by decide⟩
  refine ⟨hlimit, exists_outermostCall_nestedCalls, hfound, ?_, hcycle, hplain, ?_⟩
  · rw [← hfound]
    exact (dependents_complete hlimit exists_outermostCall_nestedCalls).1
  · rw [← hcycle]
    exact (dependents_complete hlimit exists_outermostCall_nestedCalls).2 hplain

end Tierwise
