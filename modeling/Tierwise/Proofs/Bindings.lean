import Tierwise.Proofs.Alteration
import Tierwise.Proofs.Delegation
import Tierwise.Proofs.Edge.Ledger

/-! # Bindings and member edges

Both are made together, but a name that is bound anew loses its old binding, and the edge that was drawn for it stays.
So the member edges of an object tell everything that was ever bound in it, in order, and its bindings tell what was
bound last.
-/

namespace Tierwise

/-- What the name was bound to last. -/
def latest? (history : List (String × NodeRef)) (name : String) : Option NodeRef := history.reverse.lookup name

/-- The node was bound, and every name under which it was has been bound to another node since. -/
def Superseded (history : List (String × NodeRef)) (m : NodeRef) : Prop :=
  (∃ name, (name, m) ∈ history) ∧ ∀ name, (name, m) ∈ history → latest? history name ≠ some m

section History

variable {history : List (String × NodeRef)} {name : String} {m : NodeRef}

theorem latest?_append (earlier later : List (String × NodeRef)) (name : String) :
    latest? (earlier ++ later) name = (latest? later name).or (latest? earlier name) := by
  rw [latest?, List.reverse_append, List.lookup_append]
  rfl

theorem mem_of_latest? (h : latest? history name = some m) : (name, m) ∈ history := by
  obtain ⟨before, after, heq, -⟩ := List.lookup_eq_some_iff.1 h
  rw [← List.mem_reverse, heq]
  simp

/-- Of names that are bound only once every binding is the latest. -/
theorem latest?_of_mem (hnodup : (history.map Prod.fst).Nodup) (h : (name, m) ∈ history) :
    latest? history name = some m := by
  obtain ⟨before, after, rfl⟩ := List.append_of_mem h
  have hafter : ∀ p ∈ after.reverse, (name == p.1) = false := by
    intro p hp
    simp only [List.map_append, List.map_cons, List.nodup_append, List.nodup_cons] at hnodup
    simp only [beq_eq_false_iff_ne]
    rintro rfl
    exact hnodup.2.1.1 (List.mem_map_of_mem (List.mem_reverse.1 hp))
  rw [latest?_append, latest?, List.reverse_cons, List.lookup_append, List.lookup_eq_none_iff.2 (by simpa using hafter)]
  simp

/-- A node that was bound is superseded unless some name is still bound to it. -/
theorem superseded_iff : Superseded history m ↔ m ∈ history.map Prod.snd ∧ ¬∃ name, latest? history name = some m := by
  unfold Superseded
  constructor
  · rintro ⟨⟨name, hname⟩, hlost⟩
    refine ⟨List.mem_map.2 ⟨(name, m), hname, rfl⟩, ?_⟩
    rintro ⟨other, hother⟩
    exact hlost other (mem_of_latest? hother) hother
  · rintro ⟨hm, hlost⟩
    obtain ⟨⟨name, m⟩, hname, rfl⟩ := List.mem_map.1 hm
    exact ⟨⟨name, hname⟩, fun other _ hother => hlost ⟨other, hother⟩⟩

end History

namespace Graph

theorem outNodes_member_eq (g : Graph) (object : NodeRef) : g.outNodes object (some .member) =
    (g.edges.live.filter fun d => d.source = object ∧ d.type = .member).map Edge.target := by
  rw [outNodes, neighbours, edgesAt_eq_filter]
  simp [Edge.near, Edge.far, eq_comm (a := EdgeType.member)]

theorem ownMember?_eq (g : Graph) (object : NodeRef) (name : String) :
    g.ownMember? object name = (((g.node? object).map Node.members).getD []).lookup name := by
  unfold ownMember?
  cases g.node? object with
  | none => rfl
  | some a =>
    obtain ⟨serial, kind⟩ := a
    cases kind <;> rfl

end Graph

namespace Edit

/-- The types of the edges that the operation draws by hand. -/
def drawn : Edit → List EdgeType
  | addEdge _ _ type _ => [type]
  | addEdgesOut _ ends => ends.map (·.2.1)
  | addEdgesIn _ ends => ends.map (·.2)
  | _ => []

/-- The edges that the operation removes. -/
def struck (g : Graph) : Edit → List Edge
  | removeOut source target type | removeIn target source type => g.edges.between source target type
  | _ => []

/-- The operation draws no member edge by hand and removes none. -/
def SparesMembers (g : Graph) (e : Edit) : Prop := .member ∉ e.drawn ∧ ∀ d ∈ e.struck g, d.type ≠ .member
deriving Decidable

/-- The binding that the operation makes in the object, if it makes one. -/
def bound (object : NodeRef) (g : Graph) : Edit → List (String × NodeRef)
  | addMember o name member =>
    match (g.addMember o name member).1 with
    | .ok _ => if o = object then [(name, member)] else []
    | .error _ => []
  | _ => []

variable {g : Graph} {e : Edit}

/-! ### The edges -/

/-- Edges of other types are not seen among the member edges. -/
theorem filter_member_append {object : NodeRef} {fresh : List Edge} (hfresh : ∀ d ∈ fresh, d.type ≠ .member)
    (ledger : List Edge) : ((ledger ++ fresh).filter fun d => d.source = object ∧ d.type = .member) =
      ledger.filter fun d => d.source = object ∧ d.type = .member := by
  have hnone : (fresh.filter fun d => d.source = object ∧ d.type = .member) = [] := by
    rw [List.filter_eq_nil_iff]
    intro d hd
    simp [hfresh d hd]
  rw [List.filter_append, hnone, List.append_nil]

theorem filter_member_of_spared {source target object : NodeRef} {type : Option EdgeType}
    (hspare : ∀ d ∈ g.edges.between source target type, d.type ≠ .member) :
    ((g.edges.live.filter fun d => ¬d.Between source target type).filter fun d =>
      d.source = object ∧ d.type = .member) = g.edges.live.filter fun d => d.source = object ∧ d.type = .member := by
  rw [List.filter_filter]
  refine List.filter_congr fun d hd => ?_
  rw [Bool.eq_iff_iff]
  simp only [Bool.and_eq_true, decide_eq_true_eq, and_iff_left_iff_imp]
  rintro ⟨-, hmember⟩ hbetween
  refine hspare d ?_ hmember
  rw [EdgeStore.between_eq_filter, List.mem_filter]
  exact ⟨hd, Edge.joins_iff.2 hbetween⟩

/-- The member edges grow at the end, by the edge of the binding that the operation makes. -/
theorem outNodes_member_apply (hspare : e.SparesMembers g) (object : NodeRef) :
    (e.apply g).outNodes object (some .member) =
      g.outNodes object (some .member) ++ (e.bound object g).map Prod.snd := by
  obtain ⟨hdrawn, hstruck⟩ := hspare
  rw [Graph.outNodes_member_eq, Graph.outNodes_member_eq, live_apply]
  cases e with
  | addEdge source target type label =>
    have hfresh : type ≠ .member := fun htype => hdrawn (by simp [drawn, htype])
    rw [record, filter_member_append (by simpa using hfresh)]
    exact (List.append_nil _).symm
  | addEdgesOut source ends =>
    rw [record, filter_member_append]
    · exact (List.append_nil _).symm
    · intro d hd htype
      obtain ⟨p, hp, rfl⟩ := List.mem_map.1 hd
      exact hdrawn (List.mem_map.2 ⟨p.2, (List.of_mem_zip hp).2, htype⟩)
  | addEdgesIn target ends =>
    rw [record, filter_member_append]
    · exact (List.append_nil _).symm
    · intro d hd htype
      obtain ⟨p, hp, rfl⟩ := List.mem_map.1 hd
      exact hdrawn (List.mem_map.2 ⟨p.2, (List.of_mem_zip hp).2, htype⟩)
  | addMember o name member =>
    cases hadd : (g.addMember o name member).1 with
    | error _ => simp [record, bound, hadd]
    | ok _ =>
      by_cases ho : o = object
      · subst ho
        simp [record, bound, hadd]
      · simp [record, bound, hadd, ho]
  | removeOut source target type =>
    rw [record, filter_member_of_spared hstruck]
    exact (List.append_nil _).symm
  | removeIn target source type =>
    rw [record, filter_member_of_spared hstruck]
    exact (List.append_nil _).symm
  | _ => exact (List.append_nil _).symm

theorem outNodes_member_applyAll {edits : List Edit} (hspare : Along SparesMembers g edits) (object : NodeRef) :
    (applyAll g edits).outNodes object (some .member) =
      g.outNodes object (some .member) ++ (collect (bound object) g edits).map Prod.snd := by
  induction edits generalizing g with
  | nil => exact (List.append_nil _).symm
  | cons e rest ih =>
    change (applyAll (e.apply g) rest).outNodes object (some .member) = _
    rw [ih hspare.2, outNodes_member_apply hspare.1, collect, List.map_append, List.append_assoc]

/-! ### The bindings -/

theorem members_of_alteration {n : NodeRef} {f : Node → Node} (he : ∀ o name m, e ≠ addMember o name m)
    (h : e.alteration? g = some (n, f)) (a : Node) : (f a).members = a.members := by
  obtain ⟨serial, kind⟩ := a
  cases e with
  | addMember o name m => exact absurd rfl (he o name m)
  | markRoot | markObjectRoot | addExceptionExit | setIsConstructor | addCall | setConstructorNode | setArity =>
    cases h
    cases kind <;> rfl
  | _ => cases h

/-- Only adding a member binds a name. -/
theorem ownMember?_apply_of_ne (he : ∀ o name m, e ≠ addMember o name m) (object : NodeRef) (name : String) :
    (e.apply g).ownMember? object name = g.ownMember? object name := by
  rw [Graph.ownMember?_eq, Graph.ownMember?_eq]
  congr 1
  apply view_apply
  · intro memo a
    rfl
  · intro serial kind construct hfresh
    cases kind with
    | objectEntry state =>
      cases hfresh
      rfl
    | entry | call | statement | formal | actual | exit | slice => rfl
  · intro n f a h
    exact members_of_alteration he h a

/-- A binding that the operation makes comes before all that there are. -/
theorem ownMember?_apply (g : Graph) (e : Edit) (object : NodeRef) (name : String) :
    (e.apply g).ownMember? object name = (latest? (e.bound object g) name).or (g.ownMember? object name) := by
  cases e with
  | addMember o other member =>
    -- a refused binding leaves the graph as it is, and one in another object is not seen in this one
    cases hadd : (g.addMember o other member).1 with
    | error err =>
      have hkept : (g.addMember o other member).2 = g := by
        unfold Graph.addMember at hadd ⊢
        cases hexpect : g.expect o Node.isObjectEntry .objectEntry with
        | error _ => rfl
        | ok _ => simp [hexpect] at hadd
      rw [apply, hkept]
      simp [bound, hadd, latest?]
    | ok _ =>
      rw [apply, Graph.ownMember?_addMember (Prod.ext hadd rfl)]
      by_cases ho : o = object
      · subst ho
        by_cases hname : name = other
        · simp [bound, hadd, latest?, hname]
        · simp [bound, hadd, latest?, List.lookup_cons, hname, beq_eq_false_iff_ne.2 hname]
      · simp [bound, hadd, ho, Ne.symm ho, latest?]
  | _ => exact ownMember?_apply_of_ne (by simp) object name

theorem ownMember?_applyAll (g : Graph) (edits : List Edit) (object : NodeRef) (name : String) :
    (applyAll g edits).ownMember? object name =
      (latest? (collect (bound object) g edits) name).or (g.ownMember? object name) := by
  induction edits generalizing g with
  | nil => rfl
  | cons e rest ih =>
    change (applyAll (e.apply g) rest).ownMember? object name = _
    rw [ih, ownMember?_apply, collect, latest?_append, Option.or_assoc]

end Edit

namespace Graph

/-- After any run that leaves member edges to bindings, the member edges of an object list all that was bound in it, and
a name is bound to what it was bound to last. Whatever is bound has its edge. An edge leads to a node that is bound no
more just when the node is superseded, and so never where every name was bound once. -/
theorem member_edges_list_history {start : Graph} {edits : List Edit} (hstart : start.Initial)
    (hspare : Edit.Along Edit.SparesMembers start edits) (object : NodeRef) :
    let g := Edit.applyAll start edits
    let history := Edit.collect (Edit.bound object) start edits
    g.outNodes object (some .member) = history.map Prod.snd ∧
      (∀ name, g.ownMember? object name = latest? history name) ∧
      (∀ name m, g.ownMember? object name = some m → m ∈ g.outNodes object (some .member)) ∧
      (∀ m, (m ∈ g.outNodes object (some .member) ↔ ∃ name, g.ownMember? object name = some m) ↔
        ¬Superseded history m) ∧
      ((history.map Prod.fst).Nodup → ∀ m, ¬Superseded history m) := by
  intro g history
  have hedges : g.outNodes object (some .member) = history.map Prod.snd := by
    have hnone : start.outNodes object (some .member) = [] := by
      rw [hstart.eq_blank]
      rfl
    rw [Edit.outNodes_member_applyAll hspare, hnone, List.nil_append]
  have hnames : ∀ name, g.ownMember? object name = latest? history name := by
    intro name
    have hnone : start.ownMember? object name = none := by
      rw [hstart.eq_blank]
      rfl
    rw [Edit.ownMember?_applyAll, hnone, Option.or_none]
  have hbound : ∀ name m, g.ownMember? object name = some m → m ∈ g.outNodes object (some .member) := by
    intro name m hm
    rw [hnames] at hm
    rw [hedges]
    exact List.mem_map.2 ⟨(name, m), mem_of_latest? hm, rfl⟩
  refine ⟨hedges, hnames, hbound, ?_, ?_⟩
  · intro m
    rw [superseded_iff, ← hedges]
    simp only [← hnames]
    constructor
    · rintro hiff ⟨hm, hlost⟩
      exact hlost (hiff.1 hm)
    · intro hkept
      refine ⟨fun hm => ?_, fun ⟨name, hm⟩ => hbound name m hm⟩
      by_cases hlost : ∃ name, g.ownMember? object name = some m
      · exact hlost
      · exact absurd ⟨hm, hlost⟩ hkept
  · rintro hnodup m ⟨⟨name, hm⟩, hlost⟩
    exact hlost name hm (latest?_of_mem hnodup hm)

/-- Object 0 binds two names to statement 1 and one of them anew, and a third name to statement 3 and then to another.
Edges of other types are drawn and removed in between. -/
def reboundNames : List Edit :=
  let statement := Edit.addStatement none
  [.addObjectEntry none, statement, statement, statement, .addMember 0 "x" 1, .addEdge 0 3 .control none,
    .addMember 0 "y" 1, .addMember 0 "x" 2, .addMember 0 "z" 3, .removeOut 0 3 (some .control), .addMember 0 "z" 2]

/-- Statement 1 is still bound under the second name, and statement 3 is not bound at all. -/
theorem member_edges_list_history_reboundNames :
    let g := Edit.applyAll empty reboundNames
    Edit.Along Edit.SparesMembers empty reboundNames ∧ g.outNodes 0 (some .member) = [1, 1, 2, 3, 2] ∧
      g.ownMember? 0 "x" = some 2 ∧ (∃ name, g.ownMember? 0 name = some 1) ∧ ¬∃ name, g.ownMember? 0 name = some 3 := by
  intro g
  have hspare : Edit.Along Edit.SparesMembers empty reboundNames := by decide
  have hhistory : Edit.collect (Edit.bound 0) empty reboundNames = [("x", 1), ("y", 1), ("x", 2), ("z", 3), ("z", 2)] := by decide
  obtain ⟨hedges, hnames, -, hiff, -⟩ := member_edges_list_history .empty hspare 0
  rw [hhistory] at hedges hnames hiff
  refine ⟨hspare, hedges, hnames "x", ⟨"y", hnames "y"⟩, fun hbound => ?_⟩
  refine (hiff 3).1 ⟨fun _ => hbound, fun _ => ?_⟩ ⟨⟨"z", by simp⟩, ?_⟩
  · rw [hedges]
    simp
  · intro name hname
    have hz : name = "z" := by simpa using hname
    rw [hz]
    decide

/-- The edge to a member stays when its name is bound to another node, and no name is bound to the member any more. -/
theorem member_edge_outlives_binding :
    let edits := [.addObjectEntry none, .addStatement none, .addStatement none, .addMember 0 "x" 1, .addMember 0 "x" 2]
    let g := Edit.applyAll empty edits
    Edit.Along Edit.SparesMembers empty edits ∧ 1 ∈ g.outNodes 0 (some .member) ∧
      ¬∃ name, g.ownMember? 0 name = some 1 := by
  intro edits g
  refine ⟨by decide, by decide, ?_⟩
  rintro ⟨name, hname⟩
  have hhistory : Edit.collect (Edit.bound 0) empty edits = [("x", 1), ("x", 2)] := by decide
  have hlatest : latest? [("x", 1), ("x", 2)] name = some 1 := by
    rw [← hhistory, ← hname, Edit.ownMember?_applyAll]
    exact Option.or_none.symm
  have hx : name = "x" := by simpa using mem_of_latest? hlatest
  rw [hx] at hlatest
  cases hlatest

end Graph

end Tierwise
