import Tierwise.Proofs.Closure.Invoker

/-! # What crossing tiers does to a closure

The remote edges out of the origin come first in the queue and change the order in which everything else is found. A
closure that was run to its end does not depend on the order in what it follows, as long as nothing that invokes a call
is a dead end. Then whatever is found without crossing tiers is found with it, save for calls that the other order
leaves to what invokes them.
-/

namespace Tierwise

namespace Graph

variable {g : Graph} {n : NodeRef} {keepActuals : Bool}

/-- No control edge into a call comes from a call, or from an actual parameter where these are kept. -/
def InvokersFollowed (g : Graph) (keepActuals : Bool) : Prop :=
  ∀ e ∈ g.edges.live, e.type = .control → g.holds Node.isCall e.target = true →
    g.holds Node.isCall e.source = false ∧ (keepActuals = true → g.holds Node.isActual e.source = false)
deriving Decidable

/-- Every control edge out of an actual parameter leads to a call. -/
def ArgumentsAreCalls (g : Graph) : Prop :=
  ∀ e ∈ g.edges.live, e.type = .control → g.holds Node.isActual e.source = true → g.holds Node.isCall e.target = true
deriving Decidable

theorem ArgumentsAreCalls.not_deadEnd (hg : g.ArgumentsAreCalls) (hcall : g.role n ≠ .call)
    (hactual : keepActuals = true → g.role n ≠ .actual) : ¬g.DeadEnd keepActuals n := by
  rintro (hrole | ⟨hkeep, hrole⟩ | ⟨err, herr⟩)
  · exact hcall hrole
  · exact hactual hkeep hrole
  · have hslots : g.argumentSlots n = [] := by
      apply argumentSlots_eq_nil
      rintro e he htype hsource rfl
      exact hcall (role_eq_call_iff.2 (hg e he htype hsource))
    cases (outermostCall_of_argumentSlots_eq_nil hslots).symm.trans herr

end Graph

namespace Closure

variable {g : Graph} {origin n : NodeRef} {keepActuals : Bool} {c d : Closure} {e : Edge} {popped : List Edge}

/-- The node is known, or it is a call and what invokes it is a member. -/
def Represents (g : Graph) (c : Closure) (n : NodeRef) : Prop :=
  c.knows n = true ∨
    g.role n = .call ∧ ∃ up, g.controller? n = some up ∧ g.holds Node.isEntry up = false ∧ up ∈ c.members

/-- An edge that was followed in `d` does nothing that is not in `d` already, whatever else is known. -/
theorem within_of_move (hinvoker : g.InvokersFollowed keepActuals) (hslots : g.ArgumentsAreCalls)
    (hd : d.Complete g true keepActuals origin popped) (hqueue : d.queue = []) (horigin : d.origin = origin)
    (hsame : c.origin = origin) (he : e ∈ popped) (hc : c.Within (· ∈ popped) (d.Represents g)) {c' : Closure}
    (hmove : Move g keepActuals c e c') : c'.Within (· ∈ popped) (d.Represents g) := by
  have hsettled : d.Settled g keepActuals popped e := by
    simpa [hqueue] using hd.settled e he
  -- What `c` did not know and `d` knows is a member of `d`, and the edges out of it were followed.
  have hfollow : ∀ m, d.knows m = true → ¬g.DeadEnd keepActuals m → c.knows m = false →
      d.Represents g m ∧ ∀ x ∈ g.outEdges m (some .data), x ∈ popped := by
    intro m hm hend hnew
    have hne : m ≠ origin := by
      rintro rfl
      simp [knows, hsame] at hnew
    have hmember : m ∈ d.members := by
      rw [knows_iff, horigin] at hm
      exact hm.resolve_left hne
    refine ⟨.inl hm, fun x hx => ?_⟩
    simpa [hqueue] using hd.expanded m hmember hend hx
  cases hmove with
  | keep hrole hkeep => exact hc.add (.inl (((settled_actual hrole).1 hsettled).1 hkeep))
  | pass => exact hc
  | climb hrole hkeep hcall hne hup =>
    obtain ⟨hout, hin⟩ := (((settled_actual hrole).1 hsettled).2 hkeep _ hcall hne).1 _ hup
    exact (hc.push fun x hx => hout hx).push fun x hx => hin hx
  | stuck hrole hkeep hcall hne herr =>
    have hknown := (((settled_actual hrole).1 hsettled).2 hkeep _ hcall hne).2 _ herr
    exact { hc.add (.inl hknown) with }
  | call hrole hknown =>
    obtain ⟨halone, hinvoked⟩ := (settled_call hrole).1 hsettled
    apply hc.add
    cases hup : g.controller? e.target with
    | none => exact .inl (halone (by simp [hup]))
    | some up =>
      by_cases hself : g.holds Node.isEntry up = true ∨ up = d.origin
      · exact .inl (halone (by simpa [hup] using hself))
      · rw [not_or, Bool.not_eq_true] at hself
        have hmember := (knows_iff.1 (hinvoked up hup hself.1)).resolve_left hself.2
        exact .inr ⟨hrole, up, hup, hself.1, hmember⟩
  | @invoke up hrole hup hentry =>
    refine hc.follow (hfollow up (((settled_call hrole).1 hsettled).2 up hup hentry) ?_)
    obtain ⟨x, hx, htarget, htype, rfl⟩ := Graph.exists_edge_of_controller? hup
    rw [← htarget, Graph.role_eq_call_iff] at hrole
    obtain ⟨hcall, hactual⟩ := hinvoker x hx htype hrole
    apply hslots.not_deadEnd
    · simp [Graph.role_eq_call_iff, hcall]
    · intro hkeep
      simp [Graph.role_eq_actual_iff, hactual hkeep]
  | bind hrole hsource =>
    refine hc.follow (hfollow e.target ((settled_formal hrole).1 hsettled hsource) ?_)
    exact hslots.not_deadEnd (by simp [hrole]) (by simp [hrole])
  | ignore => exact hc
  | plain hrole =>
    refine hc.follow (hfollow e.target ((settled_ordinary hrole).1 hsettled) ?_)
    exact hslots.not_deadEnd (by simp [hrole]) (by simp [hrole])

/-- A closure that does not cross tiers stays within one that does and was run to its end. -/
theorem After.within {popped' : List Edge} (hinvoker : g.InvokersFollowed keepActuals) (hslots : g.ArgumentsAreCalls)
    (hd : After g origin true keepActuals popped d) (hqueue : d.queue = [])
    (h : After g origin false keepActuals popped' c) : c.Within (· ∈ popped) (d.Represents g) := by
  induction h with
  | start =>
    unfold Closure.start
    refine Within.push ⟨by simp, by simp⟩ fun e he => ?_
    obtain ⟨hout, htype⟩ := List.mem_filter.1 he
    obtain ⟨hlive, hsource, -⟩ := Graph.mem_edgesAt.1 hout
    have hdata : e.type = .data := by simpa using htype
    simpa [hqueue] using hd.complete.seeded e hlive hsource (.inl hdata)
  | @step popped' c e rest hc hfront ih =>
    have he : e ∈ popped := ih.queue e (by simp [hfront])
    apply within_of_move hinvoker hslots hd.complete hqueue hd.sound.origin_eq _ he (ih.pop hfront) (move_step ..)
    exact hc.sound.origin_eq

end Closure

/-- Where no dead end invokes a call and only calls stand in arguments, with a limit that is at least the number of
edges, crossing tiers loses no node that is found without it, except for a call that is then represented by what
invokes it. -/
theorem Graph.dependents_crossTier {g : Graph} {origin : NodeRef} {keepActuals : Bool}
    (hlimit : g.edgeCount ≤ g.worklistLimit) (hinvoker : g.InvokersFollowed keepActuals)
    (hslots : g.ArgumentsAreCalls) :
    let crossing := (Query.dependents origin true keepActuals g).value
    ∀ n ∈ (Query.dependents origin false keepActuals g).value,
      n ∈ crossing ∨ g.holds Node.isCall n = true ∧
        ∃ up, g.controller? n = some up ∧ g.holds Node.isEntry up = false ∧ up ∈ crossing := by
  obtain ⟨popped, d, hd, hqueue, hmembers⟩ := Closure.exhausted_dependents hlimit origin true keepActuals
  obtain ⟨popped', c, hc, -, hrun⟩ := Closure.after_dependents g origin false keepActuals
  simp only [Query.value_dependents, hmembers, hrun]
  intro n hn
  have hne : n ≠ origin := by
    rintro rfl
    exact hc.sound.origin_notMem hn
  rcases (Closure.After.within hinvoker hslots hd hqueue hc).members n hn with hknown | ⟨hcall, hup⟩
  · rw [Closure.knows_iff, hd.sound.origin_eq] at hknown
    exact .inl (hknown.resolve_left hne)
  · exact .inr ⟨role_eq_call_iff.1 hcall, hup⟩

/-- Node 0 feeds the statements 1 and 2, the second one remotely too and before all else. The first feeds statement 3,
which invokes the call 4, and the second feeds that call. -/
def Graph.overtaken : Graph :=
  let node (kind : NodeKind) : Node := { serial := 0, kind }
  let edges := [(0, 2, EdgeType.remoteData), (0, 1, .data), (0, 2, .data), (1, 3, .data), (2, 4, .data), (3, 4, .control)]
  { nodes := #[node .statement, node .statement, node .statement, node .statement, node (.call none)]
    edges := edges.foldl (fun s e => s.add e.1 e.2.1 e.2.2 none) {} }

theorem Graph.dependents_crossTier_overtaken :
    overtaken.edgeCount ≤ overtaken.worklistLimit ∧ overtaken.InvokersFollowed false ∧ overtaken.ArgumentsAreCalls ∧
      (Query.dependents 0 false false overtaken).value = [1, 2, 3, 4] ∧
      (Query.dependents 0 true false overtaken).value = [2, 1, 3] ∧
      ∀ n ∈ [1, 2, 3, 4], n ∈ [2, 1, 3] ∨ overtaken.holds Node.isCall n = true ∧
        ∃ up, overtaken.controller? n = some up ∧ overtaken.holds Node.isEntry up = false ∧ up ∈ [2, 1, 3] := by
  have hlimit : overtaken.edgeCount ≤ overtaken.worklistLimit := by decide
  have hinvoker : overtaken.InvokersFollowed false := by decide
  have hslots : overtaken.ArgumentsAreCalls := by decide
  have hnear : (Query.dependents 0 false false overtaken).value = [1, 2, 3, 4] := by decide
  have hcrossing : (Query.dependents 0 true false overtaken).value = [2, 1, 3] := by decide
  refine ⟨hlimit, hinvoker, hslots, hnear, hcrossing, ?_⟩
  rw [← hnear, ← hcrossing]
  exact dependents_crossTier hlimit hinvoker hslots

/-- Node 0 feeds the call 1, which stands in the argument 2 of another call. The argument is bound to the formal
parameter 3, and node 0 feeds the argument remotely too. -/
def Graph.remoteArgument : Graph :=
  let node (kind : NodeKind) : Node := { serial := 0, kind }
  let edges := [(0, 2, EdgeType.remoteData), (0, 1, .data), (2, 1, .control), (2, 3, .data)]
  { nodes := #[node .statement, node (.call none), node (.actual .inward none), node (.formal .inward "x")]
    edges := edges.foldl (fun s e => s.add e.1 e.2.1 e.2.2 none) {} }

/-- An argument that is kept is a dead end. If it is found remotely before the call that it invokes, what is bound to it
is lost. -/
theorem Graph.dependents_lost_by_crossing :
    remoteArgument.edgeCount ≤ remoteArgument.worklistLimit ∧
      3 ∈ (Query.dependents 0 false true remoteArgument).value ∧
      3 ∉ (Query.dependents 0 true true remoteArgument).value := by
  decide

end Tierwise
