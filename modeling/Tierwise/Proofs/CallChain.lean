import Tierwise.Proofs.Limit

/-! # Climbs out of nested arguments

A step is a partial function, so there is one climb from a node: it ends at a node that no step leaves, or it comes back
to a node and goes round for ever. A climb that ends passes no node twice, and what `outermostCall` answers is settled
by its end and by the number of levels that it takes.
-/

namespace Tierwise.Graph

variable {g : Graph} {n m call top up : NodeRef} {path part loop : List NodeRef} {limit : Nat} {seen : List NodeRef}

/-! ### Steps -/

/-- The sources of control edges, oldest edge first. -/
theorem inNodes_control_eq (g : Graph) (n : NodeRef) : g.inNodes n (some .control) =
    (g.edges.live.filter fun e => e.type == .control && e.target == n).map Edge.source := by
  have hedges : g.edgesAt .incoming n (some .control) =
      g.edges.live.filter fun e => e.type == .control && e.target == n := by
    rw [edgesAt_eq_filter]
    apply List.filter_congr
    intro e _
    rw [Bool.eq_iff_iff]
    simp [Edge.near, and_comm, eq_comm (a := EdgeType.control)]
  rw [inNodes, neighbours, hedges]
  rfl

/-- The source of the oldest control edge into `n` that comes from a node of which `p` holds. -/
def firstAbove? (g : Graph) (p : Node → Bool) (n : NodeRef) : Option NodeRef :=
  (g.edges.live.find? fun e => e.type == .control && e.target == n && g.holds p e.source).map Edge.source

theorem head?_filter_inNodes (g : Graph) (p : Node → Bool) (n : NodeRef) :
    ((g.inNodes n (some .control)).filter (g.holds p)).head? = g.firstAbove? p n := by
  rw [inNodes_control_eq, List.filter_map, List.filter_filter, List.head?_map, List.head?_filter, firstAbove?]
  congr 2
  funext e
  exact Bool.and_comm _ _

/-- A step goes to the first call above the first slot, in the order in which the edges were made. -/
theorem climb?_eq_firstAbove? (g : Graph) (n : NodeRef) :
    g.climb? n = (g.firstAbove? Node.isActual n).bind (g.firstAbove? Node.isCall) := by
  rw [climb?, argumentSlots, head?_filter_inNodes]
  congr 1
  funext slot
  rw [callsOf, head?_filter_inNodes]

theorem argumentSlots_ne_nil (h : g.climb? n = some up) : g.argumentSlots n ≠ [] := by
  intro hnil
  simp [climb?, hnil] at h

theorem climb?_of_argumentSlots_eq_nil (h : g.argumentSlots n = []) : g.climb? n = none := by
  simp [climb?, h]

/-! ### One climb from a node -/

/-- Climbing from `n` leads through the nodes `path`, one step to each, and comes to `m`. -/
inductive Ascent (g : Graph) : NodeRef → List NodeRef → NodeRef → Prop
  | stay {n : NodeRef} : Ascent g n [] n
  | climb {n up m : NodeRef} {path : List NodeRef} : g.climb? n = some up → Ascent g up path m →
      Ascent g n (up :: path) m

/-- The climb from `n` comes to a node from which it comes back to the same node. -/
def ClimbsForever (g : Graph) (n : NodeRef) : Prop :=
  ∃ part m loop, g.Ascent n part m ∧ loop ≠ [] ∧ g.Ascent m loop m

namespace Ascent

theorem eq_nil_of_top (h : g.Ascent top path m) (htop : g.climb? top = none) : path = [] := by
  cases h with
  | stay => rfl
  | climb hup _ => cases htop.symm.trans hup

/-- What was climbed is the beginning of a climb that ends, and the rest of it goes on from there. -/
theorem remainder (h : g.Ascent n path top) (htop : g.climb? top = none) (hpart : g.Ascent n part m) :
    ∃ rest, path = part ++ rest ∧ g.Ascent m rest top := by
  induction hpart generalizing path with
  | stay => exact ⟨path, rfl, h⟩
  | climb hup _ ih =>
    cases h with
    | stay => cases htop.symm.trans hup
    | climb hup' hpath =>
      cases hup.symm.trans hup'
      obtain ⟨rest, rfl, hrest⟩ := ih hpath
      exact ⟨rest, rfl, hrest⟩

/-- A climb that ends comes back to none of its nodes. -/
theorem eq_nil_of_loop (h : g.Ascent n path top) (htop : g.climb? top = none) (hloop : g.Ascent n loop n) :
    loop = [] := by
  obtain ⟨rest, hpath, hrest⟩ := h.remainder htop hloop
  obtain ⟨more, hmore, htail⟩ := h.remainder htop hrest
  -- From the end of the loop the climb is the same as from its start, and so the loop adds nothing.
  rw [htail.eq_nil_of_top htop, List.append_nil] at hmore
  rw [hmore] at hpath
  exact List.self_eq_append_left.1 hpath

theorem exists_part (h : g.Ascent n path m) (hup : up ∈ path) : ∃ part, part ≠ [] ∧ g.Ascent n part up := by
  induction h with
  | stay => cases hup
  | @climb _ first _ _ hfirst _ ih =>
    rcases List.mem_cons.1 hup with rfl | hup
    · exact ⟨[up], List.cons_ne_nil _ _, .climb hfirst .stay⟩
    · obtain ⟨part, -, hpart⟩ := ih hup
      exact ⟨first :: part, List.cons_ne_nil _ _, .climb hfirst hpart⟩

theorem nodup (h : g.Ascent n path top) (htop : g.climb? top = none) : (n :: path).Nodup := by
  induction h with
  | stay => exact List.nodup_singleton _
  | climb hup hpath ih =>
    apply List.nodup_cons.2
    refine ⟨fun hn => ?_, ih htop⟩
    obtain ⟨loop, hne, hloop⟩ := (climb hup hpath).exists_part hn
    exact hne ((climb hup hpath).eq_nil_of_loop htop hloop)

theorem not_climbsForever (h : g.Ascent n path top) (htop : g.climb? top = none) : ¬g.ClimbsForever n := by
  rintro ⟨part, m, loop, hpart, hne, hloop⟩
  obtain ⟨rest, -, hrest⟩ := h.remainder htop hpart
  exact hne (hrest.eq_nil_of_loop htop hloop)

end Ascent

/-! ### Levels -/

/-- The levels that a climb along `path` to `top` takes: one for each step, and one more to see that no call owns the
slot which `top` stands in. Where `top` stands in no slot, that is seen without a level. -/
def climbLevels (g : Graph) (path : List NodeRef) (top : NodeRef) : Nat :=
  path.length + if g.argumentSlots top = [] then 0 else 1

theorem climbLevels_le_iff : g.climbLevels path top ≤ limit ↔
    path.length < limit ∨ path.length = limit ∧ g.argumentSlots top = [] := by
  unfold climbLevels
  by_cases hslots : g.argumentSlots top = []
  · rw [if_pos hslots, and_iff_left hslots]
    omega
  · rw [if_neg hslots, iff_false_intro hslots, and_false, or_false]
    omega

theorem exists_ascent_of_climbOut? (h : g.climbOut? limit seen n = some top) :
    ∃ path, g.Ascent n path top ∧ g.climb? top = none := by
  induction limit generalizing seen n with
  | zero =>
    simp only [climbOut?, Option.ite_none_right_eq_some, List.isEmpty_iff, Option.some.injEq] at h
    obtain ⟨hslots, rfl⟩ := h
    exact ⟨[], .stay, climb?_of_argumentSlots_eq_nil hslots⟩
  | succ limit ih =>
    cases hup : g.climb? n with
    | none =>
      simp only [climbOut?, hup, Option.some.injEq] at h
      subst h
      exact ⟨[], .stay, hup⟩
    | some up =>
      simp only [climbOut?, hup, Option.ite_none_left_eq_some] at h
      obtain ⟨path, hpath, htop⟩ := ih h.2
      exact ⟨up :: path, .climb hup hpath, htop⟩

/-- A climb that ends is followed to its end if and only if there are levels enough. -/
theorem climbOut?_of_ascent (h : g.Ascent n path top) (htop : g.climb? top = none) (hseen : ∀ m ∈ path, m ∉ seen) :
    g.climbOut? limit seen n = if g.climbLevels path top ≤ limit then some top else none := by
  induction h generalizing limit seen with
  | @stay n =>
    cases limit with
    | zero =>
      by_cases hslots : g.argumentSlots n = []
      · simp [climbOut?, climbLevels, hslots]
      · simp [climbOut?, climbLevels, hslots]
    | succ limit =>
      have hlevels : g.climbLevels [] n ≤ limit + 1 := climbLevels_le_iff.2 (.inl (Nat.succ_pos limit))
      simp [climbOut?, htop, hlevels]
  | @climb n up top path hup hpath ih =>
    cases limit with
    | zero =>
      -- A node that a step leaves stands in a slot, so a climb that is cut off here is refused.
      have hslots := argumentSlots_ne_nil hup
      simp [climbOut?, climbLevels, hslots]
    | succ limit =>
      have hnew : up ∉ seen := hseen up List.mem_cons_self
      have hrest : ∀ m ∈ path, m ∉ up :: seen := by
        intro m hm hmem
        rcases List.mem_cons.1 hmem with rfl | hmem
        · exact (List.nodup_cons.1 (hpath.nodup htop)).1 hm
        · exact hseen m (List.mem_cons_of_mem up hm) hmem
      have hlevels : g.climbLevels (up :: path) top ≤ limit + 1 ↔ g.climbLevels path top ≤ limit := by
        unfold climbLevels
        rw [List.length_cons]
        omega
      simp [climbOut?, hup, hnew, ih htop hrest, hlevels]

/-! ### The outermost call -/

theorem outermostCall_under_eq (g : Graph) (s : Settings) (call : NodeRef) :
    (g.under s).outermostCall call =
      match g.climbOut? s.callChainLimit.toNat [call] call with
      | some n => .ok n
      | none => .error (.callChain (g.idOf call) s.callChainLimit.toNat) := by
  rw [← g.climbOut?_under s]
  rfl

theorem exists_ascent_of_outermostCall {s : Settings} (h : (g.under s).outermostCall call = .ok top) :
    ∃ path, g.Ascent call path top ∧ g.climb? top = none := by
  rw [outermostCall_under_eq] at h
  cases hclimb : g.climbOut? s.callChainLimit.toNat [call] call with
  | none => simp [hclimb] at h
  | some n =>
    simp only [hclimb, Except.ok.injEq] at h
    exact exists_ascent_of_climbOut? (h ▸ hclimb)

theorem outermostCall_of_ascent (h : g.Ascent call path top) (htop : g.climb? top = none) (s : Settings) :
    (g.under s).outermostCall call =
      if g.climbLevels path top ≤ s.callChainLimit.toNat then .ok top
      else .error (.callChain (g.idOf call) s.callChainLimit.toNat) := by
  have hseen : ∀ m ∈ path, m ∉ [call] := by
    intro m hm hcall
    rw [List.mem_singleton.1 hcall] at hm
    exact (List.nodup_cons.1 (h.nodup htop)).1 hm
  rw [outermostCall_under_eq, climbOut?_of_ascent h htop hseen]
  by_cases hlevels : g.climbLevels path top ≤ s.callChainLimit.toNat
  · simp [hlevels]
  · simp [hlevels]

theorem climbLevels_le_of_outermostCall {s : Settings} (h : g.Ascent call path top) (htop : g.climb? top = none)
    (hok : (g.under s).outermostCall call = .ok top) : g.climbLevels path top ≤ s.callChainLimit.toNat := by
  rw [outermostCall_of_ascent h htop] at hok
  by_cases hlevels : g.climbLevels path top ≤ s.callChainLimit.toNat
  · exact hlevels
  · simp [hlevels] at hok

/-- A step of a climb goes to the first call above the first slot. A call that is answered is the end of the climb. It is
reached within the limit, through nodes none of which comes twice, and every larger limit gives the same answer. A climb
that goes round for ever is refused under every limit. -/
theorem outermostCall_settled (g : Graph) (call : NodeRef) :
    (∀ n, g.climb? n = (g.firstAbove? Node.isActual n).bind (g.firstAbove? Node.isCall)) ∧
    (∀ (s : Settings) (top : NodeRef), (g.under s).outermostCall call = .ok top →
      (∃ path, g.Ascent call path top ∧ path.length ≤ s.callChainLimit.toNat ∧ (call :: path).Nodup) ∧
        g.climb? top = none ∧
        ∀ t : Settings, s.callChainLimit ≤ t.callChainLimit → (g.under t).outermostCall call = .ok top) ∧
    (g.ClimbsForever call → ∀ s : Settings,
      (g.under s).outermostCall call = .error (.callChain (g.idOf call) s.callChainLimit.toNat)) := by
  refine ⟨g.climb?_eq_firstAbove?, ?_, ?_⟩
  · intro s top hok
    obtain ⟨path, hpath, htop⟩ := exists_ascent_of_outermostCall hok
    have hlevels := climbLevels_le_of_outermostCall hpath htop hok
    refine ⟨⟨path, hpath, ?_, hpath.nodup htop⟩, htop, fun t hle => ?_⟩
    · exact Nat.le_trans (Nat.le_add_right _ _) hlevels
    · have hmore : g.climbLevels path top ≤ t.callChainLimit.toNat := Nat.le_trans hlevels hle
      rw [outermostCall_of_ascent hpath htop, if_pos hmore]
  · intro hforever s
    rw [outermostCall_under_eq]
    cases hclimb : g.climbOut? s.callChainLimit.toNat [call] call with
    | none => rfl
    | some top =>
      obtain ⟨path, hpath, htop⟩ := exists_ascent_of_climbOut? hclimb
      exact absurd hforever (hpath.not_climbsForever htop)

/-- Calls 0, 2 and 4 stand one in an argument of the other. Calls 5 and 7 stand each in an argument of the other, and call
9 stands in one more argument of call 7. -/
def nestedAndLooped : Graph :=
  let call := Edit.addCallNode none
  let slot := Edit.addActual .inward none none
  let arcs := [(0, 1), (1, 2), (2, 3), (3, 4), (5, 6), (6, 7), (7, 8), (8, 5), (7, 10), (10, 9)]
  Edit.applyAll empty ([call, slot, call, slot, call, call, slot, call, slot, call, slot] ++
    arcs.map fun a => .addEdge a.1 a.2 .control none)

theorem outermostCall_settled_nestedAndLooped :
    let low := nestedAndLooped.under { Settings.standard with callChainLimit := 2 }
    low.outermostCall 4 = .ok 0 ∧
      (∃ path, nestedAndLooped.Ascent 4 path 0 ∧ path.length ≤ 2 ∧ (4 :: path).Nodup) ∧
      (nestedAndLooped.under Settings.standard).outermostCall 4 = .ok 0 ∧
      nestedAndLooped.ClimbsForever 9 ∧ low.outermostCall 9 = .error (.callChain "c10" 2) := by
  intro low
  obtain ⟨-, hsettled, -⟩ := outermostCall_settled nestedAndLooped 4
  have hok : low.outermostCall 4 = .ok 0 := by decide
  obtain ⟨hpath, -, hlarger⟩ := hsettled _ 0 hok
  have hloop : nestedAndLooped.ClimbsForever 9 :=
    ⟨[7], 7, [5, 7], .climb (by decide) .stay, by decide, .climb (by decide) (.climb (by decide) .stay)⟩
  refine ⟨hok, hpath, hlarger Settings.standard (by decide), hloop, ?_⟩
  exact (outermostCall_settled nestedAndLooped 9).2.2 hloop _

/-- A climb that ends is answered with its end if it has fewer steps than the limit. If it has as many, its end is the
answer only where it stands in no slot: a slot that no call owns is refused there, as is a climb with more steps. -/
theorem outermostCall_at_limit (h : g.Ascent call path top) (htop : g.climb? top = none) (s : Settings) :
    let limit := s.callChainLimit.toNat
    (g.under s).outermostCall call =
      if path.length < limit ∨ path.length = limit ∧ g.argumentSlots top = [] then .ok top
      else .error (.callChain (g.idOf call) limit) := by
  intro limit
  rw [outermostCall_of_ascent h htop]
  exact if_congr climbLevels_le_iff rfl rfl

theorem outermostCall_at_limit_nestedAndLooped :
    nestedAndLooped.Ascent 4 [2, 0] 0 ∧ nestedAndLooped.climb? 0 = none ∧
      (nestedAndLooped.under { Settings.standard with callChainLimit := 2 }).outermostCall 4 = .ok 0 ∧
      (nestedAndLooped.under { Settings.standard with callChainLimit := 1 }).outermostCall 4 =
        .error (.callChain "c5" 1) := by
  have hpath : nestedAndLooped.Ascent 4 [2, 0] 0 := .climb (by decide) (.climb (by decide) .stay)
  have htop : nestedAndLooped.climb? 0 = none := by decide
  have hlimit := outermostCall_at_limit hpath htop
  refine ⟨hpath, htop, (hlimit _).trans (if_pos ?_), (hlimit _).trans (if_neg ?_)⟩
  · exact .inr ⟨by decide, by decide⟩
  · decide

/-- Call 2 stands in an argument of call 0, and call 0 in a slot that no call owns. One level may be climbed. -/
def ownerlessSlot : Graph :=
  Edit.applyAll empty [.setSettings { Settings.standard with callChainLimit := 1 }, .addCallNode none,
    .addActual .inward none none, .addCallNode none, .addActual .inward none none, .addEdge 0 1 .control none,
    .addEdge 1 2 .control none, .addEdge 3 0 .control none]

/-- The climb from call 2 ends after one step, and is refused with a limit of one. -/
theorem outermostCall_refused_at_limit :
    ownerlessSlot.Attained ∧ ownerlessSlot.Ascent 2 [0] 0 ∧ ownerlessSlot.climb? 0 = none ∧
      [0].length ≤ ownerlessSlot.callChainLimit ∧ ownerlessSlot.outermostCall 2 = .error (.callChain "c3" 1) ∧
      (ownerlessSlot.under Settings.standard).outermostCall 2 = .ok 0 :=
  ⟨Attained.empty.applyAll (by decide), .climb (by decide) .stay, by decide, by decide, by decide, by decide⟩

end Tierwise.Graph
