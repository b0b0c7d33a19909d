import Tierwise.Proofs.Construction

/-! # Slice roots are found by the spelling of their tag

A tier and the free name that is spelled like it share one spelling, hence one id, and whichever of them gets a root
first answers for both. Every other tag finds its own root.
-/

namespace Tierwise

namespace Tier

theorem name_injective {a b : Tier} (h : a.name = b.name) : a = b := by
  apply Option.some.inj
  rw [← ofName?_name a, h, ofName?_name b]

theorem ofName?_eq_some_iff {s : String} {t : Tier} : ofName? s = some t ↔ t.name = s := by
  constructor
  · intro h
    simpa using List.find?_some h
  · rintro rfl
    exact ofName?_name t

end Tier

namespace Tag

/-- The other tag with the same spelling, if there is one. -/
def namesake : Tag → Option Tag
  | tier t => some (named t.name)
  | named s => (Tier.ofName? s).map tier

theorem text_eq_of_namesake {s t : Tag} (h : t.namesake = some s) : s.text = t.text := by
  cases t with
  | tier t =>
    cases h
    rfl
  | named name =>
    obtain ⟨u, hu, rfl⟩ := Option.map_eq_some_iff.1 h
    exact Tier.ofName?_eq_some_iff.1 hu

theorem namesake_ne_self (t : Tag) : t.namesake ≠ some t := by
  cases t <;> simp [namesake]

/-- A spelling stands for one tag, or for a tag and its namesake. -/
theorem text_eq_iff {s t : Tag} : s.text = t.text ↔ s = t ∨ t.namesake = some s := by
  constructor
  · intro h
    cases s with
    | tier a =>
      cases t with
      | tier b =>
        rw [Tier.name_injective h]
        exact .inl rfl
      | named name =>
        have hname : Tier.ofName? name = some a := Tier.ofName?_eq_some_iff.2 h
        rw [namesake, hname]
        exact .inr rfl
    | named name =>
      cases t with
      | tier b =>
        cases h
        exact .inr rfl
      | named other =>
        cases h
        exact .inl rfl
  · rintro (rfl | h)
    · rfl
    · exact text_eq_of_namesake h

end Tag

theorem Node.sliceMark?_eq_some_iff {a : Node} {mark : SliceMark} : a.sliceMark? = some mark ↔ a.kind = .slice mark := by
  unfold sliceMark?
  cases a.kind <;> simp

namespace Graph

variable {g : Graph}

/-- The tag that a slice root carries. -/
def rootTag? (g : Graph) (n : NodeRef) : Option Tag := (g.sliceMark? n).map SliceMark.tag

theorem rootTag?_eq_some_iff {n : NodeRef} {t : Tag} :
    g.rootTag? n = some t ↔ ∃ a mark, g.node? n = some a ∧ a.kind = .slice mark ∧ mark.tag = t := by
  rw [rootTag?, Option.map_eq_some_iff]
  constructor
  · rintro ⟨mark, hmark, htag⟩
    obtain ⟨a, ha, hslice⟩ := Option.bind_eq_some_iff.1 hmark
    exact ⟨a, mark, ha, Node.sliceMark?_eq_some_iff.1 hslice, htag⟩
  · rintro ⟨a, mark, ha, hkind, htag⟩
    exact ⟨mark, Option.bind_eq_some_iff.2 ⟨a, ha, Node.sliceMark?_eq_some_iff.2 hkind⟩, htag⟩

/-- An id that begins with the letter C finds the root whose tag is spelled like the rest of it. -/
theorem Built.find?_slice_iff (hg : g.Built) {text : String} {n : NodeRef} :
    g.find? ("C" ++ text) = some n ↔ ∃ s, g.rootTag? n = some s ∧ s.text = text := by
  rw [hg.find?_iff]
  constructor
  · rintro ⟨a, ha, hid⟩
    obtain ⟨mark, hkind, htext⟩ := NodeKind.exists_mark_of_id_eq hid
    exact ⟨mark.tag, rootTag?_eq_some_iff.2 ⟨a, mark, ha, hkind, rfl⟩, htext⟩
  · rintro ⟨s, hs, rfl⟩
    obtain ⟨a, mark, ha, hkind, rfl⟩ := rootTag?_eq_some_iff.1 hs
    exact ⟨a, ha, by rw [Node.id, hkind, NodeKind.id]⟩

theorem isSlice_of_rootTag? {n : NodeRef} {t : Tag} (h : g.rootTag? n = some t) : g.holds Node.isSlice n = true := by
  obtain ⟨a, mark, ha, hkind, -⟩ := rootTag?_eq_some_iff.1 h
  exact holds_iff.2 ⟨a, ha, by rw [Node.isSlice, Node.sliceMark?_eq_some_iff.2 hkind, Option.isSome_some]⟩

theorem Built.sliceRoot?_eq (hg : g.Built) (t : Tag) : g.sliceRoot? t = g.find? ("C" ++ t.text) := by
  unfold sliceRoot?
  cases hf : g.find? ("C" ++ t.text) with
  | none => rfl
  | some n =>
    obtain ⟨s, hs, -⟩ := hg.find?_slice_iff.1 hf
    rw [Option.filter_some, isSlice_of_rootTag? hs, if_pos rfl]

theorem Built.sliceRoot?_iff (hg : g.Built) {t : Tag} {n : NodeRef} :
    g.sliceRoot? t = some n ↔ ∃ s, g.rootTag? n = some s ∧ s.text = t.text := by
  rw [hg.sliceRoot?_eq, hg.find?_slice_iff]

/-- Roots that are spelled the same are one root. -/
theorem Built.root_unique (hg : g.Built) {m n : NodeRef} {s t : Tag} (hm : g.rootTag? m = some s)
    (hn : g.rootTag? n = some t) (htext : s.text = t.text) : m = n := by
  have hfound : g.sliceRoot? t = some m := hg.sliceRoot?_iff.2 ⟨s, hm, htext⟩
  rw [hg.sliceRoot?_iff.2 ⟨t, hn, rfl⟩] at hfound
  exact (Option.some.inj hfound).symm

/-- The lookup of a tag is exact if and only if no root carries its namesake. -/
theorem Built.sliceRoot?_exact_iff (hg : g.Built) (t : Tag) :
    (∀ n, g.sliceRoot? t = some n ↔ g.rootTag? n = some t) ↔ ∀ n s, g.rootTag? n = some s → t.namesake ≠ some s := by
  constructor
  · intro hexact n s hs hname
    have hfound : g.sliceRoot? t = some n := hg.sliceRoot?_iff.2 ⟨s, hs, Tag.text_eq_of_namesake hname⟩
    rw [hexact, hs] at hfound
    rw [Option.some.inj hfound] at hname
    exact t.namesake_ne_self hname
  · intro hnone n
    rw [hg.sliceRoot?_iff]
    constructor
    · rintro ⟨s, hs, htext⟩
      rcases Tag.text_eq_iff.1 htext with rfl | hname
      · exact hs
      · exact absurd hname (hnone n s hs)
    · intro ht
      exact ⟨t, ht, rfl⟩

/-- A tier without a root in sight gets a new one, which carries the tier. -/
theorem Built.ensureTierRoot_of_none (hg : g.Built) {tier : Tier} (hnone : g.sliceRoot? (.tier tier) = none) :
    ∃ n, (g.ensureTierRoot tier).1 = .ok n ∧ (g.ensureTierRoot tier).2.rootTag? n = some (.tier tier) := by
  have hfree : g.find? ("C" ++ (Tag.tier tier).text) = none := by rw [← hg.sliceRoot?_eq, hnone]
  let mark : SliceMark := ⟨.tier tier, some tier, true⟩
  have hmade : g.ensureTierRoot tier = (.ok g.nodes.size, (g.addNode (.slice mark)).2) := by
    simp [ensureTierRoot, hnone, addTierRoot, addSlice, hfree, addNode, mark]
  rw [hmade]
  exact ⟨_, rfl, rootTag?_eq_some_iff.2 ⟨_, mark, g.node?_addNode (.slice mark) none, rfl, rfl⟩⟩

/-- There is always a root to be had for a tier. It carries the tier if and only if the free name that is spelled like
the tier had no root before. -/
theorem Built.ensureTierRoot_spec (hg : g.Built) (tier : Tier) :
    ∃ n s, (g.ensureTierRoot tier).1 = .ok n ∧ (g.ensureTierRoot tier).2.rootTag? n = some s ∧ s.text = tier.name ∧
      (s = .tier tier ↔ ∀ m, g.rootTag? m ≠ some (.named tier.name)) := by
  cases hr : g.sliceRoot? (.tier tier) with
  | none =>
    obtain ⟨n, hok, htag⟩ := hg.ensureTierRoot_of_none hr
    refine ⟨n, .tier tier, hok, htag, rfl, ?_⟩
    simp only [true_iff]
    intro m hm
    have hfound : g.sliceRoot? (.tier tier) = some m := hg.sliceRoot?_iff.2 ⟨_, hm, rfl⟩
    rw [hr] at hfound
    cases hfound
  | some n =>
    have hkept : g.ensureTierRoot tier = (.ok n, g) := by simp [ensureTierRoot, hr]
    obtain ⟨s, hs, htext⟩ := hg.sliceRoot?_iff.1 hr
    rw [hkept]
    refine ⟨n, s, rfl, hs, htext, ?_⟩
    constructor
    · rintro rfl m hm
      have hmn : m = n := hg.root_unique hm hs rfl
      rw [hmn, hs] at hm
      cases hm
    · intro hnone
      rcases Tag.text_eq_iff.1 htext with htier | hname
      · exact htier
      · cases hname
        exact absurd hs (hnone n)

/-- What the lookup of a tag finds in a graph that can be reached. It finds the root that is spelled like the tag, so it
finds the root that carries the tag unless its namesake has a root. Tiers can always be provided with a root. -/
theorem lookup_of_attained (hg : g.Attained) :
    (∀ t n, g.sliceRoot? t = some n ↔ ∃ s, g.rootTag? n = some s ∧ (s = t ∨ t.namesake = some s)) ∧
      (∀ t, (∀ n, g.sliceRoot? t = some n ↔ g.rootTag? n = some t) ↔
        ∀ n s, g.rootTag? n = some s → t.namesake ≠ some s) ∧
      ∀ tier, ∃ n s, (g.ensureTierRoot tier).1 = .ok n ∧ (g.ensureTierRoot tier).2.rootTag? n = some s ∧
        s.text = tier.name ∧ (s = .tier tier ↔ ∀ m, g.rootTag? m ≠ some (.named tier.name)) := by
  refine ⟨fun t n => ?_, hg.built.sliceRoot?_exact_iff, hg.built.ensureTierRoot_spec⟩
  simp only [hg.built.sliceRoot?_iff, Tag.text_eq_iff]

/-- A free name that is no tier, a tier, and a free name that is spelled like another tier. -/
def labelled : Graph :=
  Edit.applyAll empty [.addSliceRoot (.named "billing") none, .addTierRoot .server, .addSliceRoot (.named "client") none]

theorem lookup_of_attained_labelled : labelled.Attained ∧
    (∀ n, labelled.sliceRoot? (.named "billing") = some n ↔ labelled.rootTag? n = some (.named "billing")) ∧
    ¬ (∀ n, labelled.sliceRoot? (.tier .client) = some n ↔ labelled.rootTag? n = some (.tier .client)) := by
  have hattained : labelled.Attained := Attained.empty.applyAll (by decide)
  have hlookup := lookup_of_attained hattained
  refine ⟨hattained, (hlookup.2.1 _).2 ?_, fun hexact => (hlookup.2.1 _).1 hexact 2 _ (by decide) rfl⟩
  intro n s _
  exact fun h => by simp [Tag.namesake, Tier.ofName?, Tier.all, Tier.name] at h

/-- A root for the free name answers for the tier that is spelled like it, also where the tier is to be provided with a
root. -/
theorem lookup_of_attained_namesake :
    let g := Edit.applyAll empty [.addSliceRoot (.named "client") none]
    g.Attained ∧ g.sliceRoot? (.tier .client) = some 0 ∧ g.rootTag? 0 = some (.named "client") ∧
      (g.ensureTierRoot .client).1.toOption = some 0 ∧ (g.ensureTierRoot .client).2.rootTag? 0 = some (.named "client") :=
  ⟨Attained.empty.applyAll (by decide), by decide, by decide, by decide, by decide⟩

end Graph

end Tierwise
