import Tierwise.Proofs.Closure.Move
import Tierwise.Proofs.Slice.Enumeration
import Tierwise.Proofs.Verdict
import Tierwise.Reach

/-! # Two runs of the same loop under different limits

They go the same way until the smaller limit is used up, and what an answer has by then the longer run can only add to:
members and nodes are appended, a target that was found stays found, and a search that came to a stop has ended.
-/

namespace Tierwise

/-! ### Closures -/

namespace Closure

variable {g : Graph} {keepActuals : Bool} {c d : Closure} {e : Edge} {limit limit' : Nat}

theorem members_add_grow (c : Closure) (n : NodeRef) : c.members <+: (c.add n).members := by
  unfold add
  split
  · exact List.prefix_rfl
  · exact List.prefix_append c.members [n]

/-- A move appends to the members, if it changes them at all. -/
theorem Move.members_grow (h : Move g keepActuals c e d) : c.members <+: d.members := by
  cases h with
  | keep | call => exact c.members_add_grow _
  | stuck => exact c.members_add_grow _
  | pass | ignore => exact List.prefix_rfl
  | climb => simp
  | invoke | bind | plain =>
    rw [members_follow]
    exact c.members_add_grow _

theorem members_run_grow (g : Graph) (keepActuals : Bool) (limit : Nat) (c : Closure) :
    c.members <+: (run g keepActuals limit c).members := by
  induction limit generalizing c with
  | zero => exact List.prefix_rfl
  | succ limit ih =>
    unfold run
    cases c.queue with
    | nil => exact List.prefix_rfl
    | cons e rest => exact (move_step g keepActuals { c with queue := rest } e).members_grow.trans (ih _)

/-- A larger limit goes on where the smaller one stopped. -/
theorem members_run_mono (h : limit ≤ limit') :
    (run g keepActuals limit c).members <+: (run g keepActuals limit' c).members := by
  induction limit generalizing limit' c with
  | zero => exact c.members_run_grow g keepActuals limit'
  | succ limit ih =>
    obtain ⟨more, rfl⟩ := Nat.exists_eq_add_of_lt h
    unfold run
    cases c.queue with
    | nil => exact List.prefix_rfl
    | cons e rest => exact ih (Nat.le_add_right limit more)

end Closure

/-! ### Reachability -/

namespace Reach

variable {g : Graph} {target : NodeRef} {limit limit' : Nat} {queue : List Edge} {queued : List Nat}

theorem run_eq_found_of_le (h : limit ≤ limit') (hfound : run g target limit queue queued = .found) :
    run g target limit' queue queued = .found := by
  induction limit generalizing limit' queue queued with
  | zero =>
    unfold run at hfound
    split at hfound <;> cases hfound
  | succ limit ih =>
    obtain ⟨more, rfl⟩ := Nat.exists_eq_add_of_lt h
    cases queue with
    | nil => cases hfound
    | cons e rest =>
      unfold run at hfound ⊢
      by_cases htarget : (e.target == target) = true
      · simp [htarget]
      · simp only [htarget, Bool.false_eq_true, if_false] at hfound ⊢
        exact ih (Nat.le_add_right limit more) hfound

end Reach

/-! ### Searches for a slice root -/

namespace Trail

variable {arcs : Arcs} {stop : NodeRef → Bool} {limit limit' : Nat} {queue : Queue NodeRef} {marked : List NodeRef}
  {last : Option NodeRef} {v : NodeRef}

/-- A search that has come to a stop has ended, and more of a limit makes no difference. -/
theorem last_search_of_le (h : limit ≤ limit') (hlast : ∀ w, last = some w → stop w = false) (hv : stop v = true)
    (hfound : (search arcs stop limit queue marked last).last = some v) :
    (search arcs stop limit' queue marked last).last = some v := by
  induction limit generalizing limit' queue marked last with
  | zero =>
    have hpassed := hlast v hfound
    rw [hv] at hpassed
    cases hpassed
  | succ limit ih =>
    obtain ⟨more, rfl⟩ := Nat.exists_eq_add_of_lt h
    cases hpop : queue.pop? with
    | none => rwa [search_of_pop?_eq_none hpop] at hfound ⊢
    | some p =>
      obtain ⟨w, rest⟩ := p
      rw [search_of_pop?_eq_some hpop] at hfound ⊢
      cases hstop : stop w with
      | true => simpa [hstop] using hfound
      | false =>
        simp only [hstop, Bool.false_eq_true, if_false] at hfound ⊢
        apply ih (Nat.le_add_right limit more) _ hfound
        rintro x hx
        cases hx
        exact hstop

/-- Under a limit that lets it take a node at all, a search comes back with nothing only if nothing was waiting. -/
theorem last_search_eq_none_iff_of_pos (h : 0 < limit) :
    (search arcs stop limit queue marked none).last = none ↔ queue.toList = [] := by
  rw [← Queue.pop?_eq_none_iff]
  cases hpop : queue.pop? with
  | none => simp [search_of_pop?_eq_none hpop]
  | some p =>
    obtain ⟨w, rest⟩ := p
    obtain ⟨more, rfl⟩ := Nat.exists_eq_add_of_lt h
    rw [search_of_pop?_eq_some hpop]
    split
    · simp
    · simpa using Option.isSome_iff_ne_none.1 (isSome_last_search _ rfl)

end Trail

/-! ### Graphs under two limits -/

namespace Graph

variable {g : Graph} {s t : Settings} {n r : NodeRef}

theorem climbOut?_under (g : Graph) (s : Settings) (limit : Nat) (seen : List NodeRef) (n : NodeRef) :
    (g.under s).climbOut? limit seen n = g.climbOut? limit seen n := by
  induction limit generalizing seen n with
  | zero => rfl
  | succ limit ih =>
    simp only [climbOut?, ih]
    rfl

/-- Of the settings, only the limit on nested arguments matters for a climb. -/
theorem outermostCall_under (h : t.callChainLimit = s.callChainLimit) (n : NodeRef) :
    (g.under t).outermostCall n = (g.under s).outermostCall n := by
  have hlimit : (g.under t).callChainLimit = (g.under s).callChainLimit := congrArg UInt64.toNat h
  unfold outermostCall
  rw [climbOut?_under, climbOut?_under, hlimit]
  rfl

theorem step_under (h : t.callChainLimit = s.callChainLimit) (keepActuals : Bool) (c : Closure) (e : Edge) :
    Closure.step (g.under t) keepActuals c e = Closure.step (g.under s) keepActuals c e := by
  have hactual : c.throughActual (g.under t) e.target = c.throughActual (g.under s) e.target := by
    unfold Closure.throughActual
    simp only [outermostCall_under h]
    rfl
  unfold Closure.step
  rw [hactual]
  rfl

theorem run_closure_under (h : t.callChainLimit = s.callChainLimit) (keepActuals : Bool) (limit : Nat) (c : Closure) :
    Closure.run (g.under t) keepActuals limit c = Closure.run (g.under s) keepActuals limit c := by
  induction limit generalizing c with
  | zero => rfl
  | succ limit ih => simp only [Closure.run, step_under h, ih]

theorem run_reach_under (g : Graph) (s : Settings) (target : NodeRef) (limit : Nat) (queue : List Edge)
    (queued : List Nat) : Reach.run (g.under s) target limit queue queued = Reach.run g target limit queue queued := by
  induction limit generalizing queue queued with
  | zero => rfl
  | succ limit ih =>
    simp only [Reach.run, ih]
    rfl

theorem members_dependents_mono (hcalls : t.callChainLimit = s.callChainLimit)
    (h : s.worklistLimit.toNat ≤ t.worklistLimit.toNat) (origin : NodeRef) (crossTier keepActuals : Bool) :
    ((g.under s).dependents origin crossTier keepActuals).members <+:
      ((g.under t).dependents origin crossTier keepActuals).members := by
  change (Closure.run _ _ s.worklistLimit.toNat _).members <+: (Closure.run _ _ t.worklistLimit.toNat _).members
  rw [run_closure_under hcalls]
  exact Closure.members_run_mono h

theorem pathExists_mono (h : s.worklistLimit.toNat ≤ t.worklistLimit.toNat) {a b : NodeRef}
    (hpath : (g.under s).pathExists a b = true) : (g.under t).pathExists a b = true := by
  unfold pathExists reach at hpath ⊢
  rw [beq_iff_eq, run_reach_under] at hpath ⊢
  exact Reach.run_eq_found_of_le h hpath

theorem countEdges_mono (h : s.worklistLimit.toNat ≤ t.worklistLimit.toNat) (root : NodeRef) (type : EdgeType)
    (side : Side) : (g.under s).countEdges root type side ≤ (g.under t).countEdges root type side := by
  have hnodes : ((g.under s).sliceNodes root).Sublist ((g.under t).sliceNodes root) := by
    rw [sliceNodes_eq_take, sliceNodes_eq_take]
    exact (List.take_prefix_take_left h).sublist
  exact (hnodes.flatMap _).length_le

/-- A slice root is a stop, so a search that ends at one is at its end. -/
theorem sliceRootOf_mono (h : s.worklistLimit.toNat ≤ t.worklistLimit.toNat)
    (hr : (g.under s).sliceRootOf n = some r) : (g.under t).sliceRootOf n = some r := by
  by_cases hn : g.holds Node.isSlice n = true
  · have hself : ∀ s', (g.under s').sliceRootOf n = some n := fun s' => if_pos hn
    rwa [hself] at hr ⊢
  · have hother : ∀ s', (g.under s').holds Node.isSlice n = false := fun s' => Bool.eq_false_iff.2 hn
    rw [sliceRootOf_eq_some_iff (hother _)] at hr ⊢
    exact ⟨Trail.last_search_of_le h (by simp) (isStop_of_isSlice hr.2) hr.1, hr.2⟩

/-- Whether a node is classified at all depends on the edges that enter it, under every limit that lets one be taken. -/
theorem classify_eq_unset_iff_of_pos (hs : 0 < s.worklistLimit.toNat) :
    (g.under s).classify n = .unset ↔ g.sliceMark? n = none ∧ ¬ g.HasProvenance n := by
  cases hmark : g.sliceMark? n with
  | some mark =>
    have hself : (g.under s).sliceMark? n = some mark := hmark
    simp [classify, hself]
  | none =>
    have hother : (g.under s).holds Node.isSlice n = false := by
      rw [holds_isSlice]
      exact Option.isSome_eq_false_iff.2 (Option.isNone_iff_eq_none.2 hmark)
    have hnone : ((g.under s).provenance n).last = none ↔ g.provenanceArcs.next n = [] := by
      rw [← Queue.toList_ofList (g.provenanceArcs.next n)]
      exact Trail.last_search_eq_none_iff_of_pos hs
    simp [classify_eq_unset_iff hother, hnone, next_provenanceArcs_eq_nil_iff]

/-- Raising the limit of the worklist, and nothing else, takes no answer back. -/
theorem raised_limit_keeps_answers (g : Graph) (hs : s.Valid) (ht : t.Valid)
    (hrest : t = { s with worklistLimit := t.worklistLimit }) (hle : s.worklistLimit ≤ t.worklistLimit) :
    (∀ origin crossTier keepActuals, (Query.dependents origin crossTier keepActuals (g.under s)).value <+:
        (Query.dependents origin crossTier keepActuals (g.under t)).value) ∧
      (∀ a b, (Query.pathExists a b (g.under s)).value = true → (Query.pathExists a b (g.under t)).value = true) ∧
      (∀ root type side, (Query.countEdges root type side (g.under s)).value ≤
        (Query.countEdges root type side (g.under t)).value) ∧
      (∀ n r, (Query.sliceRootOf n (g.under s)).value = some r → (Query.sliceRootOf n (g.under t)).value = some r) ∧
      ∀ n, (Query.classify n (g.under s)).value = .unset ↔ (Query.classify n (g.under t)).value = .unset := by
  have hlimit : s.worklistLimit.toNat ≤ t.worklistLimit.toNat := hle
  have hcalls : t.callChainLimit = s.callChainLimit := by rw [hrest]
  simp only [Query.value_dependents, Query.value_pathExists, Query.value_countEdges, Query.value_sliceRootOf,
    Query.value_classify]
  refine ⟨fun origin crossTier keepActuals => ?_, fun a b => pathExists_mono hlimit, fun root type side => ?_,
    fun n r => sliceRootOf_mono hlimit, fun n => ?_⟩
  · exact members_dependents_mono hcalls hlimit origin crossTier keepActuals
  · exact countEdges_mono hlimit root type side
  · rw [classify_eq_unset_iff_of_pos hs.2.1, classify_eq_unset_iff_of_pos ht.2.1]

/-- Node 0 feeds nodes 1, 2 and 3 in a row, and the slice root 4 controls node 2 in two steps. -/
def chain : Graph :=
  Edit.applyAll empty [.addStatement none, .addStatement none, .addStatement none, .addStatement none,
    .addTierRoot .client, .addEdge 0 1 .data none, .addEdge 1 2 .data none, .addEdge 2 3 .data none,
    .addEdge 4 1 .control none, .addEdge 1 2 .control none]

/-- A limit of two lets the search come to the slice root, and cuts off the closure and the path. -/
theorem raised_limit_keeps_answers_chain :
    let low := chain.under { Settings.standard with worklistLimit := 2 }
    let high := chain.under { Settings.standard with worklistLimit := 3 }
    (Query.dependents 0 false false low).value = [1, 2] ∧ (Query.dependents 0 false false high).value = [1, 2, 3] ∧
      [1, 2] <+: (Query.dependents 0 false false high).value ∧
      (Query.pathExists 0 3 low).value = false ∧ (Query.pathExists 0 2 high).value = true ∧
      (Query.sliceRootOf 2 high).value = some 4 ∧ (Query.classify 0 high).value = .unset := by
  intro low high
  obtain ⟨hdependents, hpath, -, hroot, hunset⟩ := raised_limit_keeps_answers chain
    (s := { Settings.standard with worklistLimit := 2 }) (t := { Settings.standard with worklistLimit := 3 })
    (by decide) (by decide) rfl (by decide)
  have hlow : (Query.dependents 0 false false low).value = [1, 2] := by decide
  refine ⟨hlow, by decide, hlow ▸ hdependents 0 false false, by decide, hpath 0 2 (by decide), hroot 2 4 (by decide), ?_⟩
  exact (hunset 0).1 (by decide)

end Graph

end Tierwise
