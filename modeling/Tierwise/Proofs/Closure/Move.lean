import Tierwise.Proofs.Closure

/-! # What following one edge does to a dependence closure

The move that a step makes depends on the role of the node at the end of the edge, and every move only adds: nodes to
the members, and edges to those that wait. A closure goes on from each new member unless it is a dead end.
-/

namespace Tierwise

/-- What a closure makes of a node. -/
inductive Role where
  | actual
  | call
  | formal
  | ordinary
deriving DecidableEq, Repr

def Node.role (n : Node) : Role :=
  match n.kind with
  | .actual _ _ => .actual
  | .call _ => .call
  | .formal _ _ => .formal
  | _ => .ordinary

theorem Node.isActual_iff {n : Node} : n.isActual = true ↔ n.role = .actual := by
  unfold isActual role
  cases n.kind <;> simp

theorem Node.isCall_iff {n : Node} : n.isCall = true ↔ n.role = .call := by
  unfold isCall role
  cases n.kind <;> simp

theorem Node.isFormal_iff {n : Node} : n.isFormal = true ↔ n.role = .formal := by
  unfold isFormal role
  cases n.kind <;> simp

namespace Graph

variable {g : Graph} {n : NodeRef}

/-- A node that is not there is an ordinary one. -/
def role (g : Graph) (n : NodeRef) : Role := ((g.node? n).map Node.role).getD .ordinary

theorem holds_iff_role {p : Node → Bool} {r : Role} (hp : ∀ {node : Node}, p node = true ↔ node.role = r)
    (hr : r ≠ .ordinary) : g.holds p n = true ↔ g.role n = r := by
  unfold holds role
  cases g.node? n with
  | none => simp [hr.symm]
  | some node => simp [hp]

theorem role_eq_actual_iff : g.role n = .actual ↔ g.holds Node.isActual n = true :=
  (holds_iff_role Node.isActual_iff (by decide)).symm

theorem role_eq_call_iff : g.role n = .call ↔ g.holds Node.isCall n = true :=
  (holds_iff_role Node.isCall_iff (by decide)).symm

theorem role_eq_formal_iff : g.role n = .formal ↔ g.holds Node.isFormal n = true :=
  (holds_iff_role Node.isFormal_iff (by decide)).symm

/-- Neither a call nor a parameter. -/
def Ordinary (g : Graph) (n : NodeRef) : Prop :=
  g.holds Node.isCall n = false ∧ g.holds Node.isActual n = false ∧ g.holds Node.isFormal n = false

theorem role_eq_ordinary_iff : g.role n = .ordinary ↔ g.Ordinary n := by
  simp only [Ordinary, ← Bool.not_eq_true, ← role_eq_call_iff, ← role_eq_actual_iff, ← role_eq_formal_iff]
  cases g.role n <;> simp

/-- The source of the first control edge into a node: what invokes a call, or owns a parameter. -/
def controller? (g : Graph) (n : NodeRef) : Option NodeRef := (g.inNodes n (some .control)).head?

/-- A node that a closure may have without going on from it. -/
def DeadEnd (g : Graph) (keepActuals : Bool) (n : NodeRef) : Prop :=
  g.role n = .call ∨ (keepActuals = true ∧ g.role n = .actual) ∨ ∃ err, g.outermostCall n = .error err

theorem live_of_mem_edgesAt {side : Side} {type : Option EdgeType} {e : Edge} (h : e ∈ g.edgesAt side n type) :
    e ∈ g.edges.live := (mem_edgesAt.1 h).1

theorem argumentSlots_eq_nil
    (h : ∀ e ∈ g.edges.live, e.type = .control → g.holds Node.isActual e.source = true → e.target ≠ n) :
    g.argumentSlots n = [] := by
  rw [List.eq_nil_iff_forall_not_mem]
  intro m hm
  obtain ⟨hin, hactual⟩ := List.mem_filter.1 hm
  obtain ⟨e, he, htarget, htype, rfl⟩ := mem_inNodes_control.1 hin
  exact h e he htype hactual htarget

theorem outermostCall_of_argumentSlots_eq_nil (h : g.argumentSlots n = []) : g.outermostCall n = .ok n := by
  unfold outermostCall
  cases g.callChainLimit with
  | zero => simp [climbOut?, h]
  | succ limit => simp [climbOut?, climb?, h]

end Graph

namespace Closure

variable {g : Graph} {origin n m : NodeRef} {crossTier keepActuals : Bool} {c d : Closure} {e : Edge}
  {popped es : List Edge}

/-! ### Moves -/

/-- What following an edge can do to a closure, each move with the circumstances under which it is made. -/
inductive Move (g : Graph) (keepActuals : Bool) (c : Closure) (e : Edge) : Closure → Prop
  | keep : g.role e.target = .actual → keepActuals = true → Move g keepActuals c e (c.add e.target)
  | pass : g.role e.target = .actual → keepActuals = false →
      (∀ call, g.controller? e.target = some call → g.argumentSlots call = []) → Move g keepActuals c e c
  | climb {call up : NodeRef} : g.role e.target = .actual → keepActuals = false →
      g.controller? e.target = some call → g.argumentSlots call ≠ [] → g.outermostCall call = .ok up →
      Move g keepActuals c e ((c.push (g.outEdges up (some .data))).push (g.inEdges call (some .control)))
  | stuck {call : NodeRef} {err : GraphError} : g.role e.target = .actual → keepActuals = false →
      g.controller? e.target = some call → g.argumentSlots call ≠ [] → g.outermostCall call = .error err →
      Move g keepActuals c e { c.add call with kept := c.kept ++ [call] }
  | call : g.role e.target = .call →
      (∀ up, g.controller? e.target = some up → g.holds Node.isEntry up = true ∨ c.knows up = true) →
      Move g keepActuals c e (c.add e.target)
  | invoke {up : NodeRef} : g.role e.target = .call → g.controller? e.target = some up →
      g.holds Node.isEntry up = false → c.knows up = false → Move g keepActuals c e (c.follow g up)
  | bind : g.role e.target = .formal → g.role e.source = .actual → Move g keepActuals c e (c.follow g e.target)
  | ignore : g.role e.target = .formal → g.role e.source ≠ .actual → Move g keepActuals c e c
  | plain : g.role e.target = .ordinary → Move g keepActuals c e (c.follow g e.target)

theorem move_throughActual (hactual : g.role e.target = .actual) : Move g false c e (c.throughActual g e.target) := by
  unfold throughActual
  cases hhead : (g.inNodes e.target (some .control)).head? with
  | none =>
    refine .pass hactual rfl fun call hcall => ?_
    rw [Graph.controller?, hhead] at hcall
    cases hcall
  | some call =>
    simp only
    split
    · rename_i hslots
      refine .pass hactual rfl fun call' hcall => ?_
      rw [Graph.controller?, hhead] at hcall
      cases hcall
      exact List.isEmpty_iff.1 hslots
    · rename_i hslots
      have hne : g.argumentSlots call ≠ [] := fun h => hslots (List.isEmpty_iff.2 h)
      cases hup : g.outermostCall call with
      | ok up => exact .climb hactual rfl hhead hne hup
      | error err => exact .stuck hactual rfl hhead hne hup

theorem move_throughCall (hcall : g.role e.target = .call) : Move g keepActuals c e (c.throughCall g e.target) := by
  unfold throughCall
  cases hhead : (g.inNodes e.target (some .control)).head? with
  | none =>
    refine .call hcall fun up hup => ?_
    rw [Graph.controller?, hhead] at hup
    cases hup
  | some up =>
    simp only
    split
    · rename_i hknown
      refine .call hcall fun up' hup => ?_
      rw [Graph.controller?, hhead] at hup
      cases hup
      exact Bool.or_eq_true_iff.1 hknown
    · rename_i hnew
      rw [Bool.or_eq_true, not_or, Bool.not_eq_true, Bool.not_eq_true] at hnew
      exact .invoke hcall hhead hnew.1 hnew.2

theorem move_step (g : Graph) (keepActuals : Bool) (c : Closure) (e : Edge) :
    Move g keepActuals c e (step g keepActuals c e) := by
  unfold step
  simp only [← Graph.role_eq_actual_iff, ← Graph.role_eq_call_iff, ← Graph.role_eq_formal_iff]
  cases hrole : g.role e.target with
  | actual =>
    cases keepActuals with
    | true => exact .keep hrole rfl
    | false => exact move_throughActual hrole
  | call => exact move_throughCall hrole
  | formal =>
    by_cases hsource : g.role e.source = .actual
    · simpa [hsource] using .bind hrole hsource
    · simpa [hsource] using .ignore hrole hsource
  | ordinary => exact .plain hrole

/-! ### Adding and queueing -/

theorem knows_add : (c.add n).knows m = true ↔ m = n ∨ c.knows m = true := by
  unfold add
  split
  · rename_i hn
    constructor
    · exact .inr
    · rintro (rfl | hm)
      · exact hn
      · exact hm
  · simp only [knows_iff, List.mem_append, List.mem_singleton]
    rw [← or_assoc]
    exact or_comm

@[simp] theorem queue_add : (c.add n).queue = c.queue := by
  unfold add
  split <;> rfl

@[simp] theorem queued_add : (c.add n).queued = c.queued := by
  unfold add
  split <;> rfl

@[simp] theorem origin_add : (c.add n).origin = c.origin := by
  unfold add
  split <;> rfl

@[simp] theorem members_push : (c.push es).members = c.members := by
  induction es generalizing c with
  | nil => rfl
  | cons e rest ih =>
    unfold push
    split <;> exact ih

@[simp] theorem origin_push : (c.push es).origin = c.origin := by
  induction es generalizing c with
  | nil => rfl
  | cons e rest ih =>
    unfold push
    split <;> exact ih

@[simp] theorem knows_push : (c.push es).knows n = c.knows n := by
  simp [knows]

theorem queue_subset_push : c.queue ⊆ (c.push es).queue := by
  induction es generalizing c with
  | nil => exact fun _ h => h
  | cons e rest ih =>
    unfold push
    split
    · exact ih
    · exact fun x hx => ih (List.mem_append_left _ hx)

theorem mem_queue_push (h : e ∈ (c.push es).queue) : e ∈ c.queue ∨ e ∈ es := by
  induction es generalizing c with
  | nil => exact .inl h
  | cons x rest ih =>
    unfold push at h
    split at h
    · exact (ih h).imp_right (List.mem_cons_of_mem x)
    · rcases ih h with hq | hr
      · rcases List.mem_append.1 hq with hq | hq
        · exact .inl hq
        · exact .inr (by simp [List.mem_singleton.1 hq])
      · exact .inr (List.mem_cons_of_mem x hr)

theorem members_follow : (c.follow g n).members = (c.add n).members := by
  unfold follow add
  split <;> simp

theorem knows_follow : (c.follow g n).knows m = true ↔ m = n ∨ c.knows m = true := by
  rw [← knows_add]
  unfold follow add
  split <;> simp

/-! ### Growth -/

/-- A live edge whose index was queued waits or was taken from the queue. -/
def Tracked (g : Graph) (popped : List Edge) (c : Closure) : Prop :=
  ∀ e ∈ g.edges.live, e.index ∈ c.queued → e ∈ popped ++ c.queue

theorem followed_subset (h : c.queue ⊆ d.queue) : popped ++ c.queue ⊆ popped ++ d.queue :=
  List.append_subset.2 ⟨List.subset_append_left _ _, List.subset_append_of_subset_right _ h⟩

theorem Tracked.add (h : c.Tracked g popped) : (c.add n).Tracked g popped := by
  simpa [Tracked] using h

theorem Tracked.push (h : c.Tracked g popped) (hes : ∀ e ∈ es, e ∈ g.edges.live) :
    (c.push es).Tracked g popped ∧ es ⊆ popped ++ (c.push es).queue := by
  induction es generalizing c with
  | nil => exact ⟨h, List.nil_subset _⟩
  | cons e rest ih =>
    have he := hes e List.mem_cons_self
    have hrest := fun x hx => hes x (List.mem_cons_of_mem e hx)
    unfold Closure.push
    split
    · rename_i hold
      obtain ⟨htracked, hsubset⟩ := ih h hrest
      have hmem := h e he (List.contains_iff_mem.1 hold)
      exact ⟨htracked, List.cons_subset.2 ⟨followed_subset queue_subset_push hmem, hsubset⟩⟩
    · -- Two live edges of the same index are the same edge.
      have hnew : Tracked g popped { c with queue := c.queue ++ [e], queued := e.index :: c.queued } := by
        intro x hx hi
        rw [← List.append_assoc]
        rcases List.mem_cons.1 hi with hi | hi
        · rw [EdgeStore.eq_of_index_eq hx he hi]
          exact List.mem_append_right _ (List.mem_singleton_self e)
        · exact List.mem_append_left _ (h x hx hi)
      obtain ⟨htracked, hsubset⟩ := ih hnew hrest
      refine ⟨htracked, List.cons_subset.2 ⟨?_, hsubset⟩⟩
      exact List.mem_append_right _ (queue_subset_push (by simp))

/-- Nothing is lost from `c` to `d`, and the data edges of a new member wait or were taken unless it is a dead end. -/
structure Grown (g : Graph) (keepActuals : Bool) (popped : List Edge) (c d : Closure) : Prop where
  origin : d.origin = c.origin
  members : c.members ⊆ d.members
  queue : c.queue ⊆ d.queue
  tracked : d.Tracked g popped
  fresh : ∀ n ∈ d.members, n ∈ c.members ∨ g.DeadEnd keepActuals n ∨ g.outEdges n (some .data) ⊆ popped ++ d.queue

namespace Grown

theorem refl (h : c.Tracked g popped) : Grown g keepActuals popped c c where
  origin := rfl
  members := List.Subset.refl _
  queue := List.Subset.refl _
  tracked := h
  fresh := fun _ hn => .inl hn

theorem trans {d' : Closure} (h : Grown g keepActuals popped c d) (h' : Grown g keepActuals popped d d') :
    Grown g keepActuals popped c d' where
  origin := h'.origin.trans h.origin
  members := List.Subset.trans h.members h'.members
  queue := List.Subset.trans h.queue h'.queue
  tracked := h'.tracked
  fresh := by
    intro n hn
    rcases h'.fresh n hn with hd | hend | hout
    · exact (h.fresh n hd).imp_right (Or.imp_right fun hout => List.Subset.trans hout (followed_subset h'.queue))
    · exact .inr (.inl hend)
    · exact .inr (.inr hout)

theorem knows (h : Grown g keepActuals popped c d) (hn : c.knows n = true) : d.knows n = true := by
  rw [knows_iff] at hn ⊢
  rw [h.origin]
  exact hn.imp_right fun hmem => h.members hmem

theorem push (h : c.Tracked g popped) (hes : ∀ e ∈ es, e ∈ g.edges.live) :
    Grown g keepActuals popped c (c.push es) where
  origin := origin_push
  members := by simp
  queue := queue_subset_push
  tracked := (h.push hes).1
  fresh := fun n hn => .inl (by simpa using hn)

theorem add (h : c.Tracked g popped) (hn : g.DeadEnd keepActuals n) : Grown g keepActuals popped c (c.add n) := by
  refine ⟨origin_add, ?_, by simp, h.add, ?_⟩
  · unfold Closure.add
    split
    · exact List.Subset.refl _
    · exact List.subset_append_left _ _
  · intro m hm
    unfold Closure.add at hm
    split at hm
    · exact .inl hm
    · rcases List.mem_append.1 hm with hm | hm
      · exact .inl hm
      · rw [List.mem_singleton.1 hm]
        exact .inr (.inl hn)

theorem follow (h : c.Tracked g popped) : Grown g keepActuals popped c (c.follow g n) := by
  unfold Closure.follow
  split
  · exact refl h
  · rename_i hnew
    have hadd : c.add n = { c with members := c.members ++ [n] } := if_neg hnew
    obtain ⟨htracked, hout⟩ := h.add.push fun e (he : e ∈ g.outEdges n (some .data)) => Graph.live_of_mem_edgesAt he
    refine ⟨by simp, ?_, ?_, htracked, ?_⟩
    · rw [members_push, hadd]
      exact List.subset_append_left _ _
    · exact List.Subset.trans (by simp) queue_subset_push
    · intro m hm
      rw [members_push, hadd] at hm
      rcases List.mem_append.1 hm with hm | hm
      · exact .inl hm
      · rw [List.mem_singleton.1 hm]
        exact .inr (.inr hout)

/-- Every move is growth. -/
theorem move (h : c.Tracked g popped) (hmove : Move g keepActuals c e d) : Grown g keepActuals popped c d := by
  cases hmove with
  | keep hrole hkeep => exact add h (.inr (.inl ⟨hkeep, hrole⟩))
  | pass => exact refl h
  | @climb call up =>
    have hfirst : Grown g keepActuals popped c (c.push (g.outEdges up (some .data))) :=
      push h fun _ => Graph.live_of_mem_edgesAt
    exact hfirst.trans (push hfirst.tracked fun _ => Graph.live_of_mem_edgesAt)
  | stuck _ _ _ _ herr => exact { add h (.inr (.inr ⟨_, herr⟩)) with }
  | call hrole => exact add h (.inl hrole)
  | invoke => exact follow h
  | bind => exact follow h
  | ignore => exact refl h
  | plain => exact follow h

end Grown

/-! ### Bounds -/

/-- Every edge that waits satisfies `E`, and every member satisfies `K`. -/
structure Within (E : Edge → Prop) (K : NodeRef → Prop) (c : Closure) : Prop where
  queue : ∀ e ∈ c.queue, E e
  members : ∀ n ∈ c.members, K n

namespace Within

variable {E : Edge → Prop} {K : NodeRef → Prop}

theorem add (h : c.Within E K) (hn : K n) : (c.add n).Within E K := by
  refine ⟨by simpa using h.queue, ?_⟩
  unfold Closure.add
  split
  · exact h.members
  · intro m hm
    rcases List.mem_append.1 hm with hm | hm
    · exact h.members m hm
    · rwa [List.mem_singleton.1 hm]

theorem push (h : c.Within E K) (hes : ∀ e ∈ es, E e) : (c.push es).Within E K := by
  refine ⟨fun e he => ?_, by simpa using h.members⟩
  rcases mem_queue_push he with hq | hes'
  · exact h.queue e hq
  · exact hes e hes'

/-- Only a node that was not known is gone on from. -/
theorem follow (h : c.Within E K) (hn : c.knows n = false → K n ∧ ∀ e ∈ g.outEdges n (some .data), E e) :
    (c.follow g n).Within E K := by
  unfold Closure.follow
  split
  · exact h
  · rename_i hnew
    obtain ⟨hk, hout⟩ := hn (Bool.eq_false_iff.2 hnew)
    exact (h.add hk).push hout

theorem pop {rest : List Edge} (h : c.Within E K) (hqueue : c.queue = e :: rest) :
    Within E K { c with queue := rest } := by
  refine ⟨fun x hx => h.queue x ?_, h.members⟩
  rw [hqueue]
  exact List.mem_cons_of_mem e hx

end Within

end Closure

end Tierwise
