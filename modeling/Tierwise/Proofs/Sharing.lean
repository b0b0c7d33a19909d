import Tierwise.Proofs.Verdict

/-! # Client, server or shared

Where no memo is out of date, every node is one of the three, whatever was asked before. Two nodes are alike if they
have the same tag or are both shared. That is an equivalence because a tag decides whether its nodes are shared: it
belongs to one root, and the tier of the root decides. The shared tag needs a condition, as nodes without a root have it
too.
-/

namespace Tierwise

/-- To have the same key or both a property is an equivalence if the key decides the property. -/
theorem equivalence_eq_or_both {α β : Type} {key : α → β} {p : α → Prop} (h : ∀ a b, key a = key b → p a → p b) :
    Equivalence fun a b => key a = key b ∨ p a ∧ p b where
  refl a := .inl rfl
  symm hab := hab.imp Eq.symm And.symm
  trans := by
    rintro a b c (hab | ⟨ha, hb⟩) (hbc | ⟨hb', hc⟩)
    · exact .inl (hab.trans hbc)
    · exact .inr ⟨h b a hab.symm hb', hc⟩
    · exact .inr ⟨ha, h b c hbc hb⟩
    · exact .inr ⟨ha, hc⟩

namespace Graph

variable {g h : Graph} {n : NodeRef}

/-- `h` differs from `g` in memos only, and none of its memos is out of date. -/
structure Fresh (g h : Graph) : Prop where
  bare : h.forgetAll = g.forgetAll
  coherent : ∀ n, h.Coherent n

theorem Fresh.after {α : Type} {q : Query α} (hq : Query.Faithful q) (hgh : g.Fresh h) : g.Fresh (q h).graph where
  bare := (hq h).1.trans hgh.bare
  coherent n := (hq h).2 n (hgh.coherent n)

theorem fresh_afterAll (hright : ∀ n, g.Coherent n) (queries : List MemoQuery) :
    g.Fresh (MemoQuery.afterAll g queries) where
  bare := (MemoQuery.refreshed_afterAll g queries).1
  coherent n := (MemoQuery.refreshed_afterAll g queries).2 n (hright n)

/-- The tier of the node is the shared one, or it has none. -/
def runsAnywhere (g : Graph) (n : NodeRef) : Bool := g.tierOf n == none || g.tierOf n == some .shared

namespace Fresh

theorem tag (hgh : g.Fresh h) (n : NodeRef) : (Query.tag n false h).value = (g.classify n).tag? := by
  rw [← (sameAnswers_of_forgetAll_eq hgh.bare).classify]
  exact congrArg Resolution.tag? (Query.value_resolve (hgh.coherent n) false)

theorem tier (hgh : g.Fresh h) (n : NodeRef) : (Query.tier n h).value = g.tierOf n := by
  rw [← (sameAnswers_of_forgetAll_eq hgh.bare).tierOf]
  exact Query.value_tier (hgh.coherent n)

theorem isClient (hgh : g.Fresh h) (n : NodeRef) : (Query.isClient n h).value = (g.tierOf n == some .client) := by
  rw [← hgh.tier]
  rfl

theorem isServer (hgh : g.Fresh h) (n : NodeRef) : (Query.isServer n h).value = (g.tierOf n == some .server) := by
  rw [← hgh.tier]
  rfl

/-- A node without a tag has no tier either, so the tier alone tells whether a node is shared. -/
theorem isShared (hgh : g.Fresh h) (n : NodeRef) : (Query.isShared n h).value = g.runsAnywhere n := by
  have htag := (hgh.after (Query.faithful_tier n)).tag n
  have hvalue : (Query.isShared n h).value =
      ((g.tierOf n).isNone || (g.classify n).tag?.isNone || g.tierOf n == some .shared) := by
    rw [← hgh.tier, ← htag]
    rfl
  rw [hvalue, runsAnywhere]
  cases g.verdict n with
  | root r mark _ _ hclassify htier =>
    rw [hclassify, htier]
    cases mark.tier <;> rfl
  | none _ _ htier => simp [htier]

theorem sameTag (hgh : g.Fresh h) (a b : NodeRef) :
    (Query.sameTag a b h).value = true ↔
      (g.classify a).tag? = (g.classify b).tag? ∨ g.runsAnywhere a = true ∧ g.runsAnywhere b = true := by
  have hread := Query.respected_refreshed
  have hfirst := hgh.after (hread.tag a)
  have hsecond := hfirst.after (hread.tag b)
  have hthird := hsecond.after (hread.isShared a)
  by_cases htags : (g.classify a).tag? = (g.classify b).tag?
  · simp [Query.sameTag, hgh.tag, hfirst.tag, htags]
  · by_cases hshared : g.runsAnywhere a = true
    · simp [Query.sameTag, hgh.tag, hfirst.tag, htags, hsecond.isShared, hthird.isShared, hshared]
    · simp [Query.sameTag, hgh.tag, hfirst.tag, htags, hsecond.isShared, hshared]

end Fresh

/-- Nodes of the same tag are shared together. A node under the shared tag may lack a root, and then the root of the
shared tag must not declare one of the other tiers. -/
theorem Built.runsAnywhere_of_tag_eq (hg : g.Built)
    (hshared : ∀ r mark, g.sliceMark? r = some mark → mark.tag = Tag.shared →
      mark.tier ≠ some .client ∧ mark.tier ≠ some .server)
    {a b : NodeRef} (htag : (g.classify a).tag? = (g.classify b).tag?) (ha : g.runsAnywhere a = true) :
    g.runsAnywhere b = true := by
  cases g.verdict b with
  | none _ _ htier => simp [runsAnywhere, htier]
  | root r mark _ hmark hclassify htier =>
    rw [hclassify] at htag
    cases g.verdict a with
    | root s other _ hother hclassify' htier' =>
      rw [hclassify'] at htag
      have htags : other.tag = mark.tag := Option.some.inj htag
      have hsr : s = r := by
        apply hg.root_unique (s := other.tag) (t := mark.tag)
        · rw [rootTag?, hother, Option.map_some]
        · rw [rootTag?, hmark, Option.map_some]
        · rw [htags]
      rw [hsr, hmark] at hother
      rw [runsAnywhere, htier', ← Option.some.inj hother, ← htier] at ha
      exact ha
    | none _ hclassify' _ =>
      have htags : mark.tag = Tag.shared := by
        cases hc : g.classify a with
        | declared t => simp [hc, Resolution.isDeclared] at hclassify'
        | undetermined => simpa [hc, Resolution.tag?] using htag.symm
        | unset => simp [hc, Resolution.tag?] at htag
      obtain ⟨hclient, hserver⟩ := hshared r mark hmark htags
      rw [runsAnywhere, htier]
      cases ht : mark.tier with
      | none => rfl
      | some t => cases t <;> simp_all

/-- In a graph that can be reached and has no memo out of date, every node is a client node, a server node or a shared
node and only one of these, and to have the same tag or both be shared is an equivalence, unless the root of the shared
tag declares another tier. It makes no difference what is asked before each question. -/
theorem tier_trichotomy_and_sameTag_equivalence (hg : g.Attained) (hright : ∀ n, g.Coherent n) :
    (∀ n beforeClient beforeServer beforeShared,
      [(Query.isClient n (MemoQuery.afterAll g beforeClient)).value,
        (Query.isServer n (MemoQuery.afterAll g beforeServer)).value,
        (Query.isShared n (MemoQuery.afterAll g beforeShared)).value].count true = 1) ∧
    ((∀ r mark, g.sliceMark? r = some mark → mark.tag = Tag.shared →
        mark.tier ≠ some .client ∧ mark.tier ≠ some .server) →
      ∀ before : NodeRef → NodeRef → List MemoQuery,
        Equivalence fun a b => (Query.sameTag a b (MemoQuery.afterAll g (before a b))).value = true) := by
  constructor
  · intro n beforeClient beforeServer beforeShared
    rw [(fresh_afterAll hright beforeClient).isClient, (fresh_afterAll hright beforeServer).isServer,
      (fresh_afterAll hright beforeShared).isShared, runsAnywhere]
    cases g.tierOf n with
    | none => rfl
    | some t => cases t <;> rfl
  · intro hshared before
    simp only [fun a b => (fresh_afterAll hright (before a b)).sameTag a b]
    exact equivalence_eq_or_both fun a b htag ha => hg.built.runsAnywhere_of_tag_eq hshared htag ha

/-- Node 2 is under the client root and node 3 under a root without a tier. Node 5 is under a program root, and node 6
under nothing. Some of them were asked for since all memos were forgotten. -/
def mixedTiers : Graph :=
  Edit.applyAll empty [.addTierRoot .client, .addSliceRoot (.named "log") none, .addStatement none, .addStatement none,
    .addStatement none, .markRoot 4, .addStatement none, .addStatement none, .addEdge 0 2 .control none,
    .addEdge 1 3 .control none, .addEdge 4 5 .control none, .forgetAll, .ask (.tag 3 false), .ask (.isShared 6)]

/-- Nodes 3 and 6 are alike because each is like node 5, with a recheck of node 3 on the way. -/
theorem tier_trichotomy_and_sameTag_equivalence_mixedTiers :
    mixedTiers.Attained ∧ (∀ n, mixedTiers.Coherent n) ∧
      [(Query.isClient 2 (MemoQuery.afterAll mixedTiers [.tier 2])).value, (Query.isServer 2 mixedTiers).value,
        (Query.isShared 2 (MemoQuery.afterAll mixedTiers [.classifyProgram])).value].count true = 1 ∧
      (Query.sameTag 3 6 (MemoQuery.afterAll mixedTiers [.resolve 3 true])).value = true := by
  have hattained : mixedTiers.Attained := Attained.empty.applyAll (by decide +kernel)
  have hright : ∀ n, mixedTiers.Coherent n := coherent_afterAll_forgetAll _ [.tag 3 false, .isShared 6]
  obtain ⟨hone, hequivalence⟩ := tier_trichotomy_and_sameTag_equivalence hattained hright
  have hnone : ∀ r mark, mixedTiers.sliceMark? r = some mark → mark.tag ≠ Tag.shared := by
    intro r mark hmark
    obtain ⟨a, ha, hslice⟩ := Option.bind_eq_some_iff.1 hmark
    have hall : ∀ a ∈ mixedTiers.nodes, a.carries Tag.shared = false := by decide +kernel
    have hcarries := hall a (Array.mem_of_getElem? ha)
    simpa [Node.carries, hslice] using hcarries
  have halike := hequivalence (fun r mark hmark htag => absurd htag (hnone r mark hmark)) fun _ _ => [.resolve 3 true]
  exact ⟨hattained, hright, hone 2 [.tier 2] [] [.classifyProgram],
    halike.trans (show (Query.sameTag 3 5 _).value = true by decide +kernel)
      (show (Query.sameTag 5 6 _).value = true by decide +kernel)⟩

end Graph

end Tierwise
