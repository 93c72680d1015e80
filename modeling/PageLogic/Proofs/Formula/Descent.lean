import PageLogic.Proofs.Formula.Meaning
import PageLogic.Proofs.Page.Descent
import Mathlib.Data.List.Nodup
/-!
The relation of child and parent is the descendant relation of the document. Its answers are the pairs
of a parent that is alive and an attached element beneath it which the child scope admits, parent by
parent.
-/
namespace PageLogic.Page

open PageLogic.Relation

variable {p : Page} {scope : String} {s : Css.Selector} {child parent : Handle}

/-- Asks for everything that lies beneath something, together with what it lies beneath. -/
def descents (q : Term) : Goal :=
  .fresh2 fun child parent => (childOf child parent).conj (.eq q (.list [child, parent]))

/-- What is found beneath the elements of the page, parent by parent. -/
def descentPairs (p : Page) (c : Context) : List (Handle × Handle) :=
  (p.matching everyElement).flatMap fun parent =>
    (below p.answer c parent).map fun child => (child, parent)

/-- `descents` written down, with its variables as names. -/
def descentFormula : Formula :=
  .fresh2 ⟨1⟩ ⟨2⟩ (.conj (.binary .childOf (.var ⟨1⟩) (.var ⟨2⟩))
    (.eq (.var ⟨0⟩) (.list [.var ⟨1⟩, .var ⟨2⟩])))

theorem goal_descentFormula (q : Term) :
    descentFormula.goal (Function.update Term.var ⟨0⟩ q) = descents q := by
  simp [descentFormula, descents, Formula.goal, Binary.goal, Function.update]

theorem childRows_eq_map_descentPairs (p : Page) (c : Context) :
    childRows p.answer c (p.matching everyElement) =
      (p.descentPairs c).map fun a => (.element a.1, .element a.2) := by
  simp only [childRows, descentPairs, List.map_flatMap, List.map_map]
  rfl

/-- The conditions of the formula, one for each pair. -/
theorem conditions_descentFormula (p : Page) (c : Context) :
    descentFormula.conditions (p.facts c) =
      (p.descentPairs c).map fun a v => ∃ t u, (t = .element a.1 ∧ u = .element a.2) ∧
        v ⟨0⟩ = .list [t, u] := by
  have hRows : (p.facts c).binary .childOf =
      (p.descentPairs c).map fun a => (.element a.1, .element a.2) :=
    p.childRows_eq_map_descentPairs c
  simp only [descentFormula, Formula.conditions, hRows, Branch.both, List.flatMap_map, List.map_map,
    List.map_cons, List.map_nil, ← List.map_eq_flatMap]
  refine List.map_congr_left fun a _ => ?_
  simp [Function.update]

/-- A run for everything that lies beneath something answers with the pairs that the page finds. -/
theorem run_descents {c : Context} (hRoot : c.scope.root = "*") (hExpected : p.ElementsExpected)
    (supply : Nat) :
    (Goal.run oracle c none supply descents (.of p)).1 =
      .ok ((p.descentPairs c).map fun a => .list [.element a.1, .element a.2]) := by
  let L : Fragment := ⟨fun _ => False, Binary.Fixed, NamesOnly p.Issued⟩
  have hFacts := facts_hold (L := L) hRoot hExpected rfl (fun _ h => h) fun ⟨_, h⟩ => h.elim
  have hPlain : descentFormula.Plain L (Formula.Asked supply ⟨0⟩) := by
    refine .fresh2 (.conj (.binary trivial ?_ ?_) (.eq ?_ ?_)) <;>
      simp [Term.Built, Term.LeafOf, Formula.Asked]
  obtain ⟨bs, hAnswers, hCovered⟩ := hPlain.answers_eq hFacts (w := .of p) p.steady
  have hRun : descentFormula.answers oracle c supply ⟨0⟩ (.of p) =
      (Goal.run oracle c none supply descents (.of p)).1 := by
    rw [Formula.answers]
    simp only [goal_descentFormula]
  rw [conditions_descentFormula, List.map_map] at hCovered
  have hPairs := hCovered.congr
    (g := fun a v => v ⟨supply⟩ = .list [.element a.1, .element a.2]) fun a _ v _ => by
      simp [under]
  rw [← hRun, hAnswers, hPairs.map_reify_of_forces (q := .var ⟨supply⟩)
    (t := fun a => .list [.element a.1, .element a.2])]
  · exact fun a _ => ⟨fun _ => _, Branch.admits_start _ _, rfl⟩
  · exact fun a _ v hv => hv
  · exact fun a _ => rfl

/-! ### The pairs -/

theorem mem_matching_of_alive (h : p.Alive parent) : parent ∈ p.matching everyElement := by
  obtain ⟨index, position, rfl, hPosition, hAttached, _⟩ := h
  exact mem_matching.mpr ⟨position, hPosition, everyElement_matches _ _, hAttached⟩

theorem mem_handles_of_alive (h : p.Alive parent) : parent ∈ p.handles := by
  obtain ⟨index, position, rfl, hPosition, hAttached, _⟩ := h
  exact mem_handles.mpr ⟨⟨position, hPosition⟩, hAttached⟩

/-- The pairs of a parent that is alive and an attached element beneath it which the child scope
admits. -/
theorem mem_descentPairs {c : Context} (hAddressable : p.Addressable)
    (hParse : Css.Selector.parse? c.scope.child = some s) (hScope : s.mentionsScope = false) :
    (child, parent) ∈ p.descentPairs c ↔
      p.Alive parent ∧ child ∈ p.handles ∧ child ∈ p.matching s ∧ p.Below child parent := by
  unfold descentPairs
  rw [List.mem_flatMap]
  constructor
  · rintro ⟨root, hRoot, hPair⟩
    obtain ⟨e, he, hEq⟩ := List.mem_map.mp hPair
    obtain ⟨rfl, rfl⟩ := Prod.mk.inj hEq
    exact (mem_below_iff hAddressable hParse hScope (issued_of_mem_matching hRoot)).mp he
  · intro h
    have hRoot := mem_matching_of_alive h.1
    refine ⟨parent, hRoot, List.mem_map_of_mem ?_⟩
    exact (mem_below_iff hAddressable hParse hScope (issued_of_mem_matching hRoot)).mpr h

theorem nodup_handles_self (p : Page) : p.handles.Nodup :=
  nodup_handles (p.nodup_places _)

theorem nodup_descentPairs (p : Page) (c : Context) : (p.descentPairs c).Nodup := by
  refine List.nodup_flatMap.mpr ⟨fun parent _ => ?_, ?_⟩
  · have hBelow := (p.below_sublist c parent).nodup p.nodup_handles_self
    exact hBelow.map fun e e' h => (Prod.mk.inj h).1
  · -- Pairs of different parents are different.
    refine (p.nodup_matching everyElement).imp fun {parent parent'} hNe a ha ha' => ?_
    obtain ⟨_, _, rfl⟩ := List.mem_map.mp ha
    obtain ⟨_, _, hEq⟩ := List.mem_map.mp ha'
    exact hNe (Prod.mk.inj hEq).2.symm

/-- `childOf` is the descendant relation of the document. With both arguments unknown, under the root
scope that admits everything and a child scope without `:scope`, its answers are the pairs of a parent
that is alive and an attached element beneath it which the child scope admits: each once, parent by
parent as the page enumerates them, and in document order beneath one parent. It is irreflexive and
transitive, and where the child scope admits everything, of two parents of one child one lies beneath
the other. -/
theorem childOf_is_descent (hExpected : p.ElementsExpected) (hAddressable : p.Addressable)
    (hParse : Css.Selector.parse? scope = some s) (hScope : s.mentionsScope = false)
    (supply : Nat) :
    ∃ (roots es : List Handle) (pairs : List (Handle × Handle)) (beneath : Handle → List Handle),
      p.answer (.elements "*") = .ok roots ∧ p.answer (.elements scope) = .ok es ∧
      (Goal.run oracle ⟨⟨"*", scope⟩⟩ none supply descents (.of p)).1 =
        .ok (pairs.map fun a => .list [.element a.1, .element a.2]) ∧
      (∀ child parent, (child, parent) ∈ pairs ↔
        p.Alive parent ∧ child ∈ p.handles ∧ child ∈ es ∧ p.Below child parent) ∧
      pairs.Nodup ∧
      pairs = (roots.flatMap fun parent => (beneath parent).map fun child => (child, parent)) ∧
      (∀ parent, (beneath parent).Sublist p.handles) ∧
      (∀ e, (e, e) ∉ pairs) ∧
      (∀ e₁ e₂ e₃, (e₁, e₂) ∈ pairs → (e₂, e₃) ∈ pairs → (e₁, e₃) ∈ pairs) ∧
      (scope = "*" → ∀ e₁ e₂ e₃, (e₁, e₂) ∈ pairs → (e₁, e₃) ∈ pairs → e₂ ≠ e₃ →
        (e₂, e₃) ∈ pairs ∨ (e₃, e₂) ∈ pairs) := by
  have hMem (child parent : Handle) : (child, parent) ∈ p.descentPairs ⟨⟨"*", scope⟩⟩ ↔ _ :=
    mem_descentPairs hAddressable hParse hScope
  refine ⟨_, _, p.descentPairs ⟨⟨"*", scope⟩⟩, below p.answer ⟨⟨"*", scope⟩⟩,
    p.answer_elements_star, answer_elements hParse, run_descents rfl hExpected supply, hMem,
    p.nodup_descentPairs _, rfl, p.below_sublist _, fun e he => ?_, fun e₁ e₂ e₃ h h' => ?_,
    fun hEvery e₁ e₂ e₃ h h' hNe => ?_⟩
  · exact not_below_self e ((hMem e e).mp he).2.2.2
  · obtain ⟨_, hHandle, hMatching, hBelow⟩ := (hMem e₁ e₂).mp h
    obtain ⟨hAlive, _, _, hBelow'⟩ := (hMem e₂ e₃).mp h'
    exact (hMem e₁ e₃).mpr ⟨hAlive, hHandle, hMatching, hBelow.trans hBelow'⟩
  · subst hEvery
    obtain rfl : everyElement = s := Option.some.inj hParse
    obtain ⟨hAlive, _, _, hBelow⟩ := (hMem e₁ e₂).mp h
    obtain ⟨hAlive', _, _, hBelow'⟩ := (hMem e₁ e₃).mp h'
    refine (hBelow.comparable hBelow' hNe).imp (fun hBetween => ?_) fun hBetween => ?_
    · exact (hMem e₂ e₃).mpr
        ⟨hAlive', mem_handles_of_alive hAlive, mem_matching_of_alive hAlive, hBetween⟩
    · exact (hMem e₃ e₂).mpr
        ⟨hAlive, mem_handles_of_alive hAlive', mem_matching_of_alive hAlive', hBetween⟩

/-- The second item of a list lies beneath the list, and the list not beneath the item. -/
theorem childOf_is_descent_twoItems :
    ∃ pairs : List (Handle × Handle),
      (Goal.run oracle ⟨⟨"*", "li"⟩⟩ none 0 descents (.of twoItems)).1 =
          .ok (pairs.map fun a => .list [.element a.1, .element a.2]) ∧
        (twoItems.handle 5, twoItems.handle 3) ∈ pairs ∧
        (twoItems.handle 3, twoItems.handle 5) ∉ pairs := by
  have hParse : Css.Selector.parse? "li" = some ⟨[.compound [.tag "li"]]⟩ := rfl
  have hItems : twoItems.matching ⟨[.compound [.tag "li"]]⟩ =
      [twoItems.handle 4, twoItems.handle 5] := by
    rw [matching_eq_map_attached (by decide +kernel)]
    decide +kernel
  obtain ⟨list, hList⟩ := exists_position_twoItems 3 (by decide)
  obtain ⟨roots, es, pairs, beneath, _, hMatching, hRun, hMem, _⟩ :=
    childOf_is_descent (p := twoItems) (s := ⟨[.compound [.tag "li"]]⟩) (fun index h => by cases h)
      ⟨by decide, length_twoItems ▸ by decide⟩ hParse rfl 0
  obtain rfl := Except.ok.inj ((answer_elements hParse).symm.trans hMatching)
  refine ⟨pairs, hRun, (hMem _ _).mpr ⟨⟨3, list, rfl, hList, nofun, rfl⟩, ?_, ?_, below_twoItems⟩,
    fun h => ?_⟩
  · exact mem_handles.mpr ⟨exists_position_twoItems 5 (by decide), nofun⟩
  · simp [hItems]
  · exact not_below_self _ (below_twoItems.trans ((hMem _ _).mp h).2.2.2)

end PageLogic.Page
