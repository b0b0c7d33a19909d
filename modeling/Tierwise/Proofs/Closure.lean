import Tierwise.Dependence
import Tierwise.Proofs.Edge.Order

/-! # What a dependence closure consists of

Whatever is added or queued has a reason that leads back to the origin, and the reasons are kept through every branch of
a step. No edge is queued twice, so the closure cannot go on for longer than there are edges.
-/

namespace Tierwise

theorem Node.isFormal_eq_false_of_isActual {n : Node} (h : n.isActual = true) : n.isFormal = false := by
  unfold isActual at h
  unfold isFormal
  split at h <;> simp_all

theorem Node.isFormal_eq_false_of_isCall {n : Node} (h : n.isCall = true) : n.isFormal = false := by
  unfold isCall at h
  unfold isFormal
  split at h <;> simp_all

namespace Graph

variable {g : Graph} {origin n m : NodeRef} {crossTier : Bool} {e : Edge}

theorem holds_eq_false_of_holds {p q : Node → Bool} (hpq : ∀ {node}, p node = true → q node = false)
    (h : g.holds p n = true) : g.holds q n = false := by
  obtain ⟨node, hnode, hp⟩ := holds_iff.1 h
  simpa [holds, hnode] using hpq hp

/-! ### Reasons -/

/-- A path from `origin` leads to the node, over data edges forward and over control edges backward. Remote data may
take the first step if tiers may be crossed. -/
inductive Influences (g : Graph) (crossTier : Bool) (origin : NodeRef) : NodeRef → Prop
  | origin : Influences g crossTier origin origin
  | data {e : Edge} : Influences g crossTier origin e.source → e ∈ g.edges.live → e.type = .data →
      Influences g crossTier origin e.target
  | control {e : Edge} : Influences g crossTier origin e.target → e ∈ g.edges.live → e.type = .control →
      Influences g crossTier origin e.source
  | remote {e : Edge} : crossTier = true → e ∈ g.edges.live → e.type = .remoteData → e.source = origin →
      Influences g crossTier origin e.target

/-- The edge carries a value: over data, or remotely out of the origin if tiers may be crossed. -/
def Carries (crossTier : Bool) (origin : NodeRef) (e : Edge) : Prop :=
  e.type = .data ∨ crossTier = true ∧ e.type = .remoteData ∧ e.source = origin

/-- An argument is bound to the node. -/
def Bound (g : Graph) (crossTier : Bool) (origin n : NodeRef) : Prop :=
  ∃ e ∈ g.edges.live, Carries crossTier origin e ∧ g.holds Node.isActual e.source = true ∧ e.target = n

/-- A node that may be a member. -/
structure Admitted (g : Graph) (crossTier : Bool) (origin n : NodeRef) : Prop where
  influenced : g.Influences crossTier origin n
  bound : g.holds Node.isFormal n = true → g.outEdges n (some .control) = [] → g.Bound crossTier origin n

/-- An edge that may be queued. One that carries no value leads to a node that controls another one. -/
structure Queueable (g : Graph) (crossTier : Bool) (origin : NodeRef) (e : Edge) : Prop where
  live : e ∈ g.edges.live
  influenced : g.Influences crossTier origin e.target
  carries : Carries crossTier origin e ∨ g.outEdges e.target (some .control) ≠ []

theorem mem_inNodes_control :
    m ∈ g.inNodes n (some .control) ↔ ∃ e ∈ g.edges.live, e.target = n ∧ e.type = .control ∧ e.source = m :=
  mem_neighbours_some

theorem Influences.above (hn : g.Influences crossTier origin n) (hm : m ∈ g.inNodes n (some .control)) :
    g.Influences crossTier origin m := by
  obtain ⟨e, hlive, rfl, htype, rfl⟩ := mem_inNodes_control.1 hm
  exact hn.control hlive htype

theorem outEdges_control_ne_nil (hm : m ∈ g.inNodes n (some .control)) : g.outEdges m (some .control) ≠ [] := by
  obtain ⟨e, hlive, -, htype, hsource⟩ := mem_inNodes_control.1 hm
  have he : e ∈ g.outEdges m (some .control) := mem_edgesAt_some.2 ⟨hlive, hsource, htype⟩
  exact List.ne_nil_of_mem he

theorem Influences.climbOut {limit : Nat} {seen : List NodeRef} (hn : g.Influences crossTier origin n)
    (h : g.climbOut? limit seen n = some m) : g.Influences crossTier origin m := by
  induction limit generalizing seen n with
  | zero =>
    simp only [climbOut?, Option.ite_none_right_eq_some, Option.some.injEq] at h
    rwa [← h.2]
  | succ limit ih =>
    unfold climbOut? at h
    cases hup : g.climb? n with
    | none =>
      rw [hup] at h
      cases h
      exact hn
    | some up =>
      simp only [hup, Option.ite_none_left_eq_some] at h
      obtain ⟨slot, hslot, hcall⟩ := Option.bind_eq_some_iff.1 hup
      have hslot := (List.mem_filter.1 (List.mem_of_mem_head? hslot)).1
      have hcall := (List.mem_filter.1 (List.mem_of_mem_head? hcall)).1
      exact ih ((hn.above hslot).above hcall) h.2

theorem Influences.outermostCall (hn : g.Influences crossTier origin n) (h : g.outermostCall n = .ok m) :
    g.Influences crossTier origin m := by
  unfold Graph.outermostCall at h
  split at h
  · rename_i hclimb
    cases h
    exact hn.climbOut hclimb
  · cases h

theorem Influences.admitted_of_not_formal (hn : g.Influences crossTier origin n) (h : g.holds Node.isFormal n = false) :
    g.Admitted crossTier origin n := by
  refine ⟨hn, fun hf => ?_⟩
  rw [h] at hf
  cases hf

/-- A node above another one is admitted, whatever its kind. -/
theorem Influences.admitted_above (hn : g.Influences crossTier origin n) (hm : m ∈ g.inNodes n (some .control)) :
    g.Admitted crossTier origin m :=
  ⟨hn.above hm, fun _ h => absurd h (outEdges_control_ne_nil hm)⟩

/-- A formal parameter is admitted where an edge enters it from an actual one. -/
theorem Queueable.admitted (he : g.Queueable crossTier origin e) (h : g.holds Node.isActual e.source = true) :
    g.Admitted crossTier origin e.target := by
  refine ⟨he.influenced, fun _ hnil => ?_⟩
  rcases he.carries with hcarries | hne
  · exact ⟨e, he.live, hcarries, h, rfl⟩
  · exact absurd hnil hne

theorem Influences.queueable_data (hn : g.Influences crossTier origin n) :
    ∀ e ∈ g.outEdges n (some .data), g.Queueable crossTier origin e := by
  intro e he
  obtain ⟨hlive, rfl, htype⟩ := mem_edgesAt_some.1 he
  exact ⟨hlive, hn.data hlive htype, .inl (.inl htype)⟩

/-- The edges into a node that controls something may be queued, whatever they carry. -/
theorem Influences.queueable_control (hn : g.Influences crossTier origin n) (h : g.outEdges n (some .control) ≠ []) :
    ∀ e ∈ g.inEdges n (some .control), g.Queueable crossTier origin e := by
  intro e he
  obtain ⟨hlive, rfl, -⟩ := mem_edgesAt_some.1 he
  exact ⟨hlive, hn, .inr h⟩

end Graph

/-! ### What a step keeps -/

namespace Closure

variable {g : Graph} {origin n : NodeRef} {crossTier keepActuals : Bool} {c : Closure} {e : Edge} {popped es : List Edge}

/-- What holds of a closure after the edges `popped` were taken from its queue. -/
structure Sound (g : Graph) (crossTier : Bool) (origin : NodeRef) (popped : List Edge) (c : Closure) : Prop where
  origin_eq : c.origin = origin
  limited : c.limited = false
  origin_notMem : origin ∉ c.members
  nodup : c.members.Nodup
  admitted : ∀ n ∈ c.members, g.Admitted crossTier origin n
  queueable : ∀ e ∈ popped ++ c.queue, g.Queueable crossTier origin e
  queued : ∀ e ∈ popped ++ c.queue, e.index ∈ c.queued
  nodup_index : ((popped ++ c.queue).map Edge.index).Nodup

theorem knows_iff : c.knows n = true ↔ n = c.origin ∨ n ∈ c.members := by
  simp [knows]

theorem Sound.add (hc : c.Sound g crossTier origin popped) (hn : g.Admitted crossTier origin n) :
    (c.add n).Sound g crossTier origin popped := by
  unfold Closure.add
  split
  · exact hc
  · rename_i hknows
    rw [knows_iff, hc.origin_eq, not_or] at hknows
    refine { hc with origin_notMem := ?_, nodup := ?_, admitted := ?_ }
    · simp [hc.origin_notMem, Ne.symm hknows.1]
    · refine List.nodup_append.2 ⟨hc.nodup, by simp, ?_⟩
      rintro m hm k hk rfl
      exact hknows.2 (List.mem_singleton.1 hk ▸ hm)
    · intro m hm
      rcases List.mem_append.1 hm with hm | hm
      · exact hc.admitted m hm
      · rwa [List.mem_singleton.1 hm]

theorem Sound.push (hc : c.Sound g crossTier origin popped) (hes : ∀ e ∈ es, g.Queueable crossTier origin e) :
    (c.push es).Sound g crossTier origin popped := by
  induction es generalizing c with
  | nil => exact hc
  | cons e rest ih =>
    have hrest := fun d hd => hes d (List.mem_cons_of_mem e hd)
    unfold Closure.push
    split
    · exact ih hc hrest
    · rename_i hnew
      rw [List.contains_iff_mem] at hnew
      refine ih { hc with queueable := ?_, queued := ?_, nodup_index := ?_ } hrest
      · intro d hd
        rw [← List.append_assoc, List.mem_append, List.mem_singleton] at hd
        rcases hd with hd | rfl
        · exact hc.queueable d hd
        · exact hes d List.mem_cons_self
      · intro d hd
        rw [← List.append_assoc, List.mem_append, List.mem_singleton] at hd
        rcases hd with hd | rfl
        · exact List.mem_cons_of_mem _ (hc.queued d hd)
        · exact List.mem_cons_self
      · rw [← List.append_assoc, List.map_append]
        refine List.nodup_append.2 ⟨hc.nodup_index, by simp, ?_⟩
        -- An index that was queued before is that of an edge in the list, and the new one was not queued.
        rintro i hi j hj rfl
        obtain ⟨d, hd, rfl⟩ := List.mem_map.1 hi
        simp only [List.map_cons, List.map_nil, List.mem_singleton] at hj
        exact hnew (hj ▸ hc.queued d hd)

theorem Sound.follow (hc : c.Sound g crossTier origin popped) (hn : g.Admitted crossTier origin n) :
    (c.follow g n).Sound g crossTier origin popped := by
  unfold Closure.follow
  split
  · exact hc
  · exact (hc.add hn).push hn.influenced.queueable_data

theorem Sound.throughActual (hc : c.Sound g crossTier origin popped) (hn : g.Influences crossTier origin n) :
    (c.throughActual g n).Sound g crossTier origin popped := by
  unfold Closure.throughActual
  cases hhead : (g.inNodes n (some .control)).head? with
  | none => exact hc
  | some call =>
    have hcall := List.mem_of_mem_head? hhead
    simp only
    split
    · exact hc
    · cases hup : g.outermostCall call with
      | ok up =>
        refine (hc.push ?_).push ?_
        · exact ((hn.above hcall).outermostCall hup).queueable_data
        · exact (hn.above hcall).queueable_control (Graph.outEdges_control_ne_nil hcall)
      | error _ => exact { hc.add (hn.admitted_above hcall) with }

theorem Sound.throughCall (hc : c.Sound g crossTier origin popped) (hn : g.Influences crossTier origin n)
    (hcall : g.holds Node.isCall n = true) : (c.throughCall g n).Sound g crossTier origin popped := by
  have hself := hn.admitted_of_not_formal (Graph.holds_eq_false_of_holds Node.isFormal_eq_false_of_isCall hcall)
  unfold Closure.throughCall
  cases hhead : (g.inNodes n (some .control)).head? with
  | none => exact hc.add hself
  | some up =>
    simp only
    split
    · exact hc.add hself
    · exact hc.follow (hn.admitted_above (List.mem_of_mem_head? hhead))

/-- Every branch of a step keeps the reasons. -/
theorem Sound.step (hc : c.Sound g crossTier origin popped) (he : g.Queueable crossTier origin e) :
    (step g keepActuals c e).Sound g crossTier origin popped := by
  unfold Closure.step
  split
  · rename_i hactual
    split
    · exact hc.add (he.influenced.admitted_of_not_formal
        (Graph.holds_eq_false_of_holds Node.isFormal_eq_false_of_isActual hactual))
    · exact hc.throughActual he.influenced
  · split
    · rename_i hcall
      exact hc.throughCall he.influenced hcall
    · split
      · split
        · rename_i hsource
          exact hc.follow (he.admitted hsource)
        · exact hc
      · rename_i hformal
        exact hc.follow (he.influenced.admitted_of_not_formal (Bool.eq_false_iff.2 hformal))

theorem Sound.pop {rest : List Edge} (hc : c.Sound g crossTier origin popped) (hqueue : c.queue = e :: rest) :
    Sound g crossTier origin (popped ++ [e]) { c with queue := rest } := by
  have hmoved : popped ++ [e] ++ rest = popped ++ c.queue := by
    rw [hqueue, List.append_assoc, List.singleton_append]
  refine { hc with queueable := ?_, queued := ?_, nodup_index := ?_ }
  · rw [hmoved]
    exact hc.queueable
  · rw [hmoved]
    exact hc.queued
  · rw [hmoved]
    exact hc.nodup_index

theorem sound_start (g : Graph) (origin : NodeRef) (crossTier : Bool) :
    (start g origin crossTier).Sound g crossTier origin [] := by
  unfold start
  refine Sound.push ⟨rfl, rfl, by simp, by simp, by simp, by simp, by simp, by simp⟩ fun e he => ?_
  obtain ⟨hout, htype⟩ := List.mem_filter.1 he
  obtain ⟨hlive, rfl, -⟩ := Graph.mem_edgesAt.1 hout
  simp only [Bool.or_eq_true, Bool.and_eq_true, beq_iff_eq] at htype
  rcases htype with hdata | ⟨hcross, hremote⟩
  · exact ⟨hlive, Graph.Influences.origin.data hlive hdata, .inl (.inl hdata)⟩
  · exact ⟨hlive, .remote hcross hlive hremote rfl, .inl (.inr ⟨hcross, hremote, rfl⟩)⟩

/-! ### Whole runs -/

/-- The closure is reached from its start by taking the edges `popped` from the queue, one after the other. -/
inductive After (g : Graph) (origin : NodeRef) (crossTier keepActuals : Bool) : List Edge → Closure → Prop
  | start : After g origin crossTier keepActuals [] (start g origin crossTier)
  | step {popped : List Edge} {c : Closure} {e : Edge} {rest : List Edge} :
      After g origin crossTier keepActuals popped c → c.queue = e :: rest →
      After g origin crossTier keepActuals (popped ++ [e]) (step g keepActuals { c with queue := rest } e)

theorem After.sound (h : After g origin crossTier keepActuals popped c) : c.Sound g crossTier origin popped := by
  induction h with
  | start => exact sound_start g origin crossTier
  | step _ hqueue ih => exact (ih.pop hqueue).step (ih.queueable _ (by simp [hqueue]))

/-- A run ends when the queue is empty or after `limit` edges. -/
theorem After.run {limit : Nat} (h : After g origin crossTier keepActuals popped c) :
    ∃ later d, After g origin crossTier keepActuals (popped ++ later) d ∧ (d.queue = [] ∨ later.length = limit) ∧
      run g keepActuals limit c = { d with limited := !d.queue.isEmpty } := by
  induction limit generalizing popped c with
  | zero => exact ⟨[], c, by simpa using h, .inr rfl, rfl⟩
  | succ limit ih =>
    cases hqueue : c.queue with
    | nil =>
      have hlimited : (!c.queue.isEmpty) = c.limited := by simp [hqueue, h.sound.limited]
      refine ⟨[], c, by simpa using h, .inl hqueue, ?_⟩
      rw [hlimited]
      simp only [Closure.run]
      split
      · rfl
      · rename_i hcons
        rw [hqueue] at hcons
        cases hcons
    | cons e rest =>
      obtain ⟨later, d, hd, hend, hrun⟩ := ih (h.step hqueue)
      refine ⟨e :: later, d, by simpa using hd, ?_, ?_⟩
      · exact hend.imp_right fun hlength => by simp [hlength]
      · simp [Closure.run, hqueue, hrun]

theorem Sound.nodup_edges (hc : c.Sound g crossTier origin popped) : (popped ++ c.queue).Nodup :=
  .of_map Edge.index hc.nodup_index

theorem Sound.length_le (hc : c.Sound g crossTier origin popped) : popped.length + c.queue.length ≤ g.edgeCount := by
  rw [← List.length_append]
  exact Graph.length_le_edgeCount hc.nodup_edges fun e he => (hc.queueable e he).live

theorem after_dependents (g : Graph) (origin : NodeRef) (crossTier keepActuals : Bool) :
    ∃ popped d, After g origin crossTier keepActuals popped d ∧ (d.queue = [] ∨ popped.length = g.worklistLimit) ∧
      g.dependents origin crossTier keepActuals = { d with limited := !d.queue.isEmpty } := by
  have hstart : After g origin crossTier keepActuals [] (start g origin crossTier) := .start
  exact hstart.run

end Closure

theorem Query.value_dependents (origin : NodeRef) (crossTier keepActuals : Bool) (g : Graph) :
    (Query.dependents origin crossTier keepActuals g).value = (g.dependents origin crossTier keepActuals).members := rfl

/-- A closure has neither its origin nor any node twice. Its members are influenced by the origin, and a formal parameter
that controls nothing is a member only where an argument is bound to it. No edge is taken from the queue twice, so a
limit that is at least the number of edges is never hit. -/
theorem Graph.dependents_sound (g : Graph) (origin : NodeRef) (crossTier keepActuals : Bool) :
    let found := (Query.dependents origin crossTier keepActuals g).value
    let c := g.dependents origin crossTier keepActuals
    origin ∉ found ∧ found.Nodup ∧ (∀ n ∈ found, g.Influences crossTier origin n) ∧
      (∀ n ∈ found, g.holds Node.isFormal n = true → g.outEdges n (some .control) = [] →
        g.Bound crossTier origin n) ∧
      (∃ popped, Closure.After g origin crossTier keepActuals popped { c with limited := false } ∧ popped.Nodup ∧
        ∀ e ∈ popped, e ∈ g.edges.live) ∧
      (g.edgeCount ≤ g.worklistLimit → c.limited = false) := by
  obtain ⟨popped, d, hd, hend, hc⟩ := Closure.after_dependents g origin crossTier keepActuals
  have hs := hd.sound
  have hunlimited : { d with limited := false } = d := by rw [← hs.limited]
  simp only [Query.value_dependents, hc]
  refine ⟨hs.origin_notMem, hs.nodup, fun n hn => (hs.admitted n hn).influenced, fun n hn => (hs.admitted n hn).bound,
    ⟨popped, ?_, ?_, ?_⟩, ?_⟩
  · rwa [hunlimited]
  · exact (List.nodup_append.1 hs.nodup_edges).1
  · intro e he
    exact (hs.queueable e (List.mem_append_left _ he)).live
  · intro hlimit
    -- At the limit every edge was popped, and none is left to wait.
    have hlength := hs.length_le
    rcases hend with hempty | hfull
    · simp [hempty]
    · have hzero : d.queue.length = 0 := by omega
      simp [List.length_eq_zero_iff.1 hzero]

end Tierwise
