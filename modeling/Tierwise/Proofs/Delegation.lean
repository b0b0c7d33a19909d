import Tierwise.Proofs.Construction.Change
import Tierwise.Proofs.Edge.Order

/-! # Members that are inherited

A look-up goes from prototype to prototype and stops where it has been before. Stopping there costs nothing: from a node
where a member is found the chain does not come back before it gets there, and so a look-up answers as if it had started
afresh at the prototype. A new binding is seen from the nodes whose chain comes to its object before it comes to another
binding of the name.
-/

namespace Tierwise.Graph

variable {g h : Graph} {name : String} {o p x y z m : NodeRef} {k l : Nat} {seen : List NodeRef}
  {q r : NodeRef → Prop}

/-! ### Chains of prototypes -/

/-- Steps from prototype to prototype, `k` of them, lead from `x` to `y`. Of every node that a step leaves `q` holds. -/
inductive Chain (g : Graph) (q : NodeRef → Prop) : Nat → NodeRef → NodeRef → Prop
  | stay {x : NodeRef} : Chain g q 0 x x
  | step {k : Nat} {x p y : NodeRef} : q x → g.prototype? x = some p → Chain g q k p y → Chain g q (k + 1) x y

/-- `y` is on the chain of prototypes that begins with `x`. -/
def OnChain (g : Graph) (x y : NodeRef) : Prop := ∃ k, g.Chain (fun _ => True) k x y

/-- The node does not bind the name itself. -/
def Unbound (g : Graph) (name : String) (x : NodeRef) : Prop := g.ownMember? x name = none

/-- The chain of `x` comes to `o`, and no node before that binds the name, `o` apart. -/
def MeetsFirst (g : Graph) (name : String) (o x : NodeRef) : Prop :=
  ∃ k, g.Chain (fun y => y = o ∨ g.Unbound name y) k x o

theorem Chain.imp (h : g.Chain q k x y) (hqr : ∀ x, q x → r x) : g.Chain r k x y := by
  induction h with
  | stay => exact .stay
  | step hx hp _ ih => exact .step (hqr _ hx) hp ih

theorem Unbound.ne_some (hx : g.Unbound name x) : g.ownMember? x name ≠ some m := by
  rw [hx]
  exact (Option.some_ne_none m).symm

/-- The first node that binds the name is so many steps away and no other number. -/
theorem Chain.length_unique (hy : g.Chain (g.Unbound name) k x y) (hz : g.Chain (g.Unbound name) l x z)
    (hm : g.ownMember? y name = some m) (hm' : g.ownMember? z name = some m) : k = l := by
  induction hy generalizing l with
  | stay =>
    cases hz with
    | stay => rfl
    | step hx _ _ => exact absurd hm hx.ne_some
  | step hx hp _ ih =>
    cases hz with
    | stay => exact absurd hm' hx.ne_some
    | step _ hp' hz =>
      cases hp.symm.trans hp'
      rw [ih hz hm]

/-- What holds all along the chain holds of the nodes that its steps leave. -/
theorem Chain.of_onChain (hchain : g.Chain q k x y) (hr : ∀ z, g.OnChain x z → r z) : g.Chain r k x y := by
  induction hchain with
  | stay => exact .stay
  | @step k x p y _ hp _ ih =>
    refine .step (hr x ⟨0, .stay⟩) hp (ih fun z hz => ?_)
    obtain ⟨l, hl⟩ := hz
    exact hr z ⟨l + 1, .step trivial hp hl⟩

theorem Chain.congr (hchain : g.Chain q k x y) (hprototype : h.prototype? = g.prototype?) : h.Chain q k x y := by
  induction hchain with
  | stay => exact .stay
  | step hx hp _ ih => exact .step hx (by rw [hprototype, hp]) ih

/-! ### What a look-up finds -/

theorem lookupFrom_of_mem (hx : x ∈ seen) : g.lookupFrom name seen x = .cycle x := by
  rw [lookupFrom, if_pos hx]

theorem lookupFrom_of_own (hx : x ∉ seen) (hm : g.ownMember? x name = some m) :
    g.lookupFrom name seen x = .found m := by
  rw [lookupFrom, if_neg hx, hm]

theorem lookupFrom_of_prototype (hx : x ∉ seen) (hown : g.Unbound name x) (hp : g.prototype? x = some p) :
    g.lookupFrom name seen x = g.lookupFrom name (x :: seen) p := by
  rw [lookupFrom, if_neg hx]
  simp only [show g.ownMember? x name = none from hown]
  split
  · simp_all
  · simp_all

theorem lookupFrom_of_top (hx : x ∉ seen) (hown : g.Unbound name x) (hp : g.prototype? x = none) :
    g.lookupFrom name seen x = .missing := by
  rw [lookupFrom, if_neg hx]
  simp only [show g.ownMember? x name = none from hown]
  split
  · rfl
  · simp_all

theorem exists_chain_of_lookupFrom (hfound : g.lookupFrom name seen x = .found m) :
    ∃ k y, g.Chain (g.Unbound name) k x y ∧ g.ownMember? y name = some m := by
  fun_induction lookupFrom g name seen x with
  | case1 => cases hfound
  | case2 seen x _ m' hown =>
    cases hfound
    exact ⟨0, x, .stay, hown⟩
  | case3 => cases hfound
  | case4 seen x _ hown p hp ih =>
    obtain ⟨k, y, hchain, hm⟩ := ih hfound
    exact ⟨k + 1, y, .step hown hp hchain, hm⟩

/-- A node is not among nodes that are all farther from the binding than itself. -/
theorem Chain.notMem_of_farther (hchain : g.Chain (g.Unbound name) k x y) (hm : g.ownMember? y name = some m)
    (hseen : ∀ z ∈ seen, ∃ l > k, g.Chain (g.Unbound name) l z y) : x ∉ seen := by
  intro hx
  obtain ⟨l, hl, hfar⟩ := hseen x hx
  have := hchain.length_unique hfar hm hm
  omega

/-- What keeps a look-up from stopping too early: every node that it has seen is farther from the binding than the
node that it is at. -/
theorem lookupFrom_of_chain (hchain : g.Chain (g.Unbound name) k x y) (hm : g.ownMember? y name = some m)
    (hseen : ∀ z ∈ seen, ∃ l > k, g.Chain (g.Unbound name) l z y) : g.lookupFrom name seen x = .found m := by
  have hnew := hchain.notMem_of_farther hm hseen
  induction hchain generalizing seen with
  | stay => exact lookupFrom_of_own hnew hm
  | @step k x p y hx hp hrest ih =>
    have hbehind : ∀ z ∈ x :: seen, ∃ l > k, g.Chain (g.Unbound name) l z y := by
      intro z hz
      rcases List.mem_cons.1 hz with rfl | hz
      · exact ⟨k + 1, Nat.lt_succ_self k, .step hx hp hrest⟩
      · obtain ⟨l, hl, hfar⟩ := hseen z hz
        exact ⟨l, Nat.lt_of_succ_lt hl, hfar⟩
    rw [lookupFrom_of_prototype hnew hx hp]
    exact ih hm hbehind (hrest.notMem_of_farther hm hbehind)

theorem member?_eq_some_iff : g.member? x name = some m ↔
    ∃ k y, g.Chain (g.Unbound name) k x y ∧ g.ownMember? y name = some m := by
  constructor
  · intro hmember
    cases hl : g.lookup x name with
    | found m' =>
      simp only [member?, hl, Lookup.member?, Option.some.injEq] at hmember
      exact exists_chain_of_lookupFrom (hmember ▸ hl)
    | missing => simp [member?, hl, Lookup.member?] at hmember
    | cycle n => simp [member?, hl, Lookup.member?] at hmember
  · rintro ⟨k, y, hchain, hm⟩
    have hfound : g.lookup x name = .found m := lookupFrom_of_chain hchain hm (by simp)
    simp [member?, hfound, Lookup.member?]

theorem member?_of_own (hm : g.ownMember? x name = some m) : g.member? x name = some m :=
  member?_eq_some_iff.2 ⟨0, x, .stay, hm⟩

/-- A node that does not bind the name finds what its prototype finds. -/
theorem member?_of_prototype (hx : g.Unbound name x) (hp : g.prototype? x = some p) :
    g.member? x name = g.member? p name := by
  ext m
  rw [member?_eq_some_iff, member?_eq_some_iff]
  constructor
  · rintro ⟨k, y, hchain, hm⟩
    cases hchain with
    | stay => exact absurd hm hx.ne_some
    | step _ hp' hrest =>
      cases hp.symm.trans hp'
      exact ⟨_, y, hrest, hm⟩
  · rintro ⟨k, y, hchain, hm⟩
    exact ⟨k + 1, y, .step hx hp hchain, hm⟩

theorem member?_of_top (hx : g.Unbound name x) (hp : g.prototype? x = none) : g.member? x name = none := by
  rw [Option.eq_none_iff_forall_ne_some]
  intro m hm
  obtain ⟨k, y, hchain, hm⟩ := member?_eq_some_iff.1 hm
  cases hchain with
  | stay => exact hx.ne_some hm
  | step _ hp' _ => cases hp.symm.trans hp'

theorem isSome_member?_of_chain (hchain : g.Chain q k x y) (hm : g.ownMember? y name = some m) :
    (g.member? x name).isSome := by
  induction hchain with
  | stay => rw [member?_of_own hm, Option.isSome_some]
  | @step k x p y _ hp _ ih =>
    cases hx : g.ownMember? x name with
    | some m' => rw [member?_of_own hx, Option.isSome_some]
    | none =>
      rw [member?_of_prototype hx hp]
      exact ih hm

theorem member?_eq_none_iff : g.member? x name = none ↔ ∀ y, g.OnChain x y → g.Unbound name y := by
  constructor
  · rintro hnone y ⟨k, hchain⟩
    cases hy : g.ownMember? y name with
    | none => exact hy
    | some m =>
      have := isSome_member?_of_chain hchain hy
      simp [hnone] at this
  · intro hchain
    rw [Option.eq_none_iff_forall_ne_some]
    intro m hm
    obtain ⟨k, y, hy, hm⟩ := member?_eq_some_iff.1 hm
    exact (hchain y ⟨k, hy.imp fun _ _ => trivial⟩).ne_some hm

/-! ### A new binding -/

theorem next_arcs (g : Graph) (type : EdgeType) (n : NodeRef) :
    (g.arcs type).next n = (g.outEdges n (some type)).map Edge.target := by
  rw [outEdges, edgesAt_eq_filter, arcs, Arcs.next, List.filter_map, List.map_map, List.filter_filter]
  congr 1
  apply List.filter_congr
  intro e _
  rw [Bool.eq_iff_iff]
  simp [Edge.near, eq_comm (a := type)]

theorem prototype?_eq (g : Graph) (n : NodeRef) :
    g.prototype? n = (g.outEdges n (some .prototype)).head?.map Edge.target := by
  rw [prototype?, next_arcs, List.head?_map]

theorem addMember_eq_ok {u : Unit} (hadd : g.addMember o name m = (.ok u, h)) :
    g.holds Node.isObjectEntry o = true ∧
      h = (g.addEdge o m .member).2.modifyNode o (Node.modifyObject (·.bind name m)) := by
  unfold addMember at hadd
  cases hexpect : g.expect o Node.isObjectEntry .objectEntry with
  | error err => simp [hexpect] at hadd
  | ok _ =>
    simp only [hexpect, Prod.mk.injEq] at hadd
    exact ⟨holds_of_expect_eq_ok hexpect, hadd.2.symm⟩

/-- Only the object itself has a binding that it did not have. -/
theorem ownMember?_addMember {u : Unit} (hadd : g.addMember o name m = (.ok u, h)) (x : NodeRef) (other : String) :
    h.ownMember? x other = if x = o ∧ other = name then some m else g.ownMember? x other := by
  obtain ⟨hobject, rfl⟩ := addMember_eq_ok hadd
  obtain ⟨a, hnode, ha⟩ := holds_iff.1 hobject
  have hnode' : (g.addEdge o m .member).2.node? o = some a := hnode
  unfold ownMember?
  rw [node?_modifyNode]
  by_cases hx : o = x
  · subst hx
    rw [if_pos rfl, hnode, hnode']
    obtain ⟨serial, kind⟩ := a
    cases kind with
    | objectEntry state =>
      by_cases hname : other = name <;>
        simp [Node.modifyObject, Node.objectState?, ObjectState.member?_bind, hname]
    | entry | call | statement | formal | actual | exit | slice => cases ha
  · rw [if_neg hx, if_neg fun hand => hx hand.1.symm]
    rfl

theorem prototype?_addMember {u : Unit} (hadd : g.addMember o name m = (.ok u, h)) : h.prototype? = g.prototype? := by
  obtain ⟨-, rfl⟩ := addMember_eq_ok hadd
  have harcs : ((g.addEdge o m .member).2.modifyNode o (Node.modifyObject (·.bind name m))).arcs .prototype =
      g.arcs .prototype := by
    simp [arcs, addEdge]
  funext x
  rw [prototype?, harcs, prototype?]

/-- Where the bindings of a name and the prototypes are the same, a look-up runs the same way. -/
theorem lookupFrom_congr (hown : ∀ x, h.ownMember? x name = g.ownMember? x name)
    (hprototype : h.prototype? = g.prototype?) (seen : List NodeRef) (x : NodeRef) :
    h.lookupFrom name seen x = g.lookupFrom name seen x := by
  fun_induction lookupFrom g name seen x with
  | case1 seen x hx => exact lookupFrom_of_mem hx
  | case2 seen x hx m hm => exact lookupFrom_of_own hx ((hown x).trans hm)
  | case3 seen x hx hm hp => exact lookupFrom_of_top hx ((hown x).trans hm) (by rw [hprototype, hp])
  | case4 seen x hx hm p hp ih =>
    rw [lookupFrom_of_prototype hx ((hown x).trans hm) (by rw [hprototype, hp])]
    exact ih

/-- The new binding is found from wherever its object is met first. -/
theorem member?_addMember_of_meetsFirst {u : Unit} (hadd : g.addMember o name m = (.ok u, h))
    (hx : g.MeetsFirst name o x) : h.member? x name = some m := by
  have hbound : h.member? o name = some m := by
    apply member?_of_own
    rw [ownMember?_addMember hadd, if_pos ⟨rfl, rfl⟩]
  have hback : ∀ {k x y}, g.Chain (fun z => z = o ∨ g.Unbound name z) k x y → h.member? y name = some m →
      h.member? x name = some m := by
    intro k x y hchain hy
    induction hchain with
    | stay => exact hy
    | @step k x p y hx hp _ ih =>
      by_cases hxo : x = o
      · rw [hxo, hbound]
      · have hunbound : h.Unbound name x := by
          rw [Unbound, ownMember?_addMember hadd, if_neg fun hand => hxo hand.1]
          exact hx.resolve_left hxo
        rw [member?_of_prototype hunbound (by rw [prototype?_addMember hadd, hp]), ih hy]
  obtain ⟨k, hchain⟩ := hx
  exact hback hchain hbound

/-- From anywhere else the name finds what it found before. -/
theorem member?_addMember_of_not_meetsFirst {u : Unit} (hadd : g.addMember o name m = (.ok u, h))
    (hx : ¬g.MeetsFirst name o x) : h.member? x name = g.member? x name := by
  have hother : ∀ {y}, y ≠ o → h.ownMember? y name = g.ownMember? y name := by
    intro y hy
    rw [ownMember?_addMember hadd, if_neg fun hand => hy hand.1]
  cases hm : g.member? x name with
  | some m' =>
    obtain ⟨k, y, hchain, hown⟩ := member?_eq_some_iff.1 hm
    clear hm
    induction hchain with
    | @stay x =>
      have hxo : x ≠ o := by
        rintro rfl
        exact hx ⟨0, .stay⟩
      apply member?_of_own
      rw [hother hxo, hown]
    | @step k x p y hunbound hp _ ih =>
      have hxo : x ≠ o := by
        rintro rfl
        exact hx ⟨0, .stay⟩
      have hmeets : ¬g.MeetsFirst name o p := by
        rintro ⟨l, hl⟩
        exact hx ⟨l + 1, .step (.inr hunbound) hp hl⟩
      have hunbound' : h.Unbound name x := by rw [Unbound, hother hxo, hunbound]
      rw [member?_of_prototype hunbound' (by rw [prototype?_addMember hadd, hp])]
      exact ih hmeets hown
  | none =>
    have hall := member?_eq_none_iff.1 hm
    rw [member?_eq_none_iff]
    rintro y ⟨k, hchain⟩
    have hback : g.Chain (fun _ => True) k x y := hchain.congr (prototype?_addMember hadd).symm
    have hyo : y ≠ o := by
      rintro rfl
      exact hx ⟨k, hback.of_onChain fun z hz => .inr (hall z hz)⟩
    rw [Unbound, hother hyo]
    exact hall y ⟨k, hback⟩

theorem member?_addMember_of_ne {u : Unit} {other : String} (hadd : g.addMember o name m = (.ok u, h))
    (hother : other ≠ name) (x : NodeRef) : h.member? x other = g.member? x other := by
  have hown : ∀ y, h.ownMember? y other = g.ownMember? y other := by
    intro y
    rw [ownMember?_addMember hadd, if_neg fun hand => hother hand.2]
  rw [member?, lookup, lookupFrom_congr hown (prototype?_addMember hadd), member?, lookup]

/-- A node has its own member, else that of the prototype to which its oldest prototype edge leads, else none, however the
prototypes run. There is none exactly if no node on the chain binds the name. A new binding is found from the nodes
whose chain meets its object first, and nothing else that is looked up changes. -/
theorem member_delegation (g : Graph) (name : String) :
    (∀ o m, g.ownMember? o name = some m → g.member? o name = some m) ∧
      (∀ o e rest, g.ownMember? o name = none → g.outEdges o (some .prototype) = e :: rest →
        g.member? o name = g.member? e.target name) ∧
      (∀ o, g.ownMember? o name = none → g.outEdges o (some .prototype) = [] → g.member? o name = none) ∧
      (∀ o, g.member? o name = none ↔ ∀ x, g.OnChain o x → g.ownMember? x name = none) ∧
      ∀ o m h, g.addMember o name m = (.ok (), h) →
        (∀ x, h.member? x name = some m ↔ g.MeetsFirst name o x ∨ g.member? x name = some m) ∧
          (∀ x, ¬g.MeetsFirst name o x → h.member? x name = g.member? x name) ∧
          ∀ x other, other ≠ name → h.member? x other = g.member? x other := by
  refine ⟨fun o m => member?_of_own, ?_, ?_, fun o => member?_eq_none_iff, fun o m h hadd => ⟨fun x => ?_, ?_, ?_⟩⟩
  · intro o e rest hown hedges
    exact member?_of_prototype hown (by rw [prototype?_eq, hedges, List.head?_cons, Option.map_some])
  · intro o hown hedges
    exact member?_of_top hown (by rw [prototype?_eq, hedges, List.head?_nil, Option.map_none])
  · by_cases hx : g.MeetsFirst name o x
    · simp [member?_addMember_of_meetsFirst hadd hx, hx]
    · simp [member?_addMember_of_not_meetsFirst hadd hx, hx]
  · intro x hx
    exact member?_addMember_of_not_meetsFirst hadd hx
  · intro x other hother
    exact member?_addMember_of_ne hadd hother x

/-- The prototypes of object 0 go round through a statement and back to object 1. The newer prototype edge to object 3,
which is its own prototype, is not followed. -/
def prototypeRing : Graph :=
  let object := Edit.addObjectEntry none
  Edit.applyAll empty [object, object, .addStatement none, object, .addEdge 0 1 .prototype none,
    .addEdge 0 3 .prototype none, .addEdge 1 2 .prototype none, .addEdge 2 1 .prototype none,
    .addEdge 3 3 .prototype none, .addMember 3 "run" 2]

/-- The ring ends in no binding. Once the object on it binds the name, the member is found from the start of the chain and
from the statement, but not from the object that has its own. -/
theorem member_delegation_prototypeRing :
    let h := (prototypeRing.addMember 1 "run" 0).2
    prototypeRing.member? 0 "run" = none ∧ (prototypeRing.addMember 1 "run" 0).1 = .ok () ∧
      h.member? 0 "run" = some 0 ∧ h.member? 2 "run" = some 0 ∧ h.member? 3 "run" = some 2 := by
  intro h
  have hok : (prototypeRing.addMember 1 "run" 0).1 = .ok () := rfl
  have hadd : prototypeRing.addMember 1 "run" 0 = (.ok (), h) := Prod.ext hok rfl
  have hunbound : ∀ x ∈ [0, 1, 2], prototypeRing.ownMember? x "run" = none := by decide
  have hstep : prototypeRing.prototype? 0 = some 1 ∧ prototypeRing.prototype? 1 = some 2 ∧
      prototypeRing.prototype? 2 = some 1 := by decide
  obtain ⟨-, -, -, hmissing, hbound⟩ := member_delegation prototypeRing "run"
  obtain ⟨hfound, -, -⟩ := hbound 1 0 h hadd
  refine ⟨(hmissing 0).2 ?_, hok, (hfound 0).2 (.inl ?_), (hfound 2).2 (.inl ?_), ?_⟩
  · -- the chain never leaves the three nodes
    have hring : ∀ {k x y}, prototypeRing.Chain (fun _ => True) k x y → x ∈ [0, 1, 2] → y ∈ [0, 1, 2] := by
      intro k x y hchain hx
      induction hchain with
      | stay => exact hx
      | step _ hp _ ih =>
        apply ih
        simp only [List.mem_cons, List.not_mem_nil, or_false] at hx
        rcases hx with rfl | rfl | rfl <;> simp_all
    rintro x ⟨k, hchain⟩
    exact hunbound x (hring hchain (by simp))
  · exact ⟨1, .step (.inr (hunbound 0 (by simp))) hstep.1 .stay⟩
  · exact ⟨1, .step (.inr (hunbound 2 (by simp))) hstep.2.2 .stay⟩
  · exact (member_delegation h "run").1 3 2 (by decide)

end Tierwise.Graph
