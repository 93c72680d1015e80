import PageLogic.Proofs.Page.Descent
import Mathlib.Data.List.Sort
/-!
The order of enumerations. Elements are enumerated in the order in which they were made. That is
document order where the source was not mended by putting an element in front of an older one, and
nowhere else.
-/
namespace PageLogic

/-- The elements of the document were made in document order: none was put in front of an older one. -/
def Html.Document.MadeInOrder (d : Html.Document) : Prop :=
  d.positions.Pairwise fun a b => a.element.birth ≤ b.element.birth

namespace Page

variable {p : Page} {es : List Handle}

/-- Every handle is that of an element further on in the document than the one in front of it. -/
def Ascending (p : Page) (es : List Handle) : Prop :=
  ∃ places : List Nat, es = places.map p.handle ∧ places.Pairwise (· < ·)

/-- The first element is not younger than the second. -/
def NotYounger (a b : Nat × Html.Position) : Prop :=
  a.2.element.birth ≤ b.2.element.birth

/-- The attached elements were made in document order. -/
def MadeInOrder (p : Page) : Prop :=
  (p.attached fun _ => true).Pairwise NotYounger

instance : DecidableRel NotYounger :=
  fun a b => inferInstanceAs (Decidable (a.2.element.birth ≤ b.2.element.birth))

instance : Decidable p.MadeInOrder :=
  inferInstanceAs (Decidable (List.Pairwise _ _))

/-- Elements that were made in document order are so whichever of them are attached. -/
theorem madeInOrder_of_document (h : p.document.MadeInOrder) : p.MadeInOrder := by
  have hSublist : ((p.attached fun _ => true).map Prod.snd).Sublist p.document.positions := by
    rw [attached_eq, List.map_map]
    have hAll := (List.filter_sublist (p := fun a => true && !p.detached.contains a.2)
      (l := p.document.positions.zipIdx)).map Prod.fst
    rwa [List.zipIdx_map_fst] at hAll
  have hAttached := h.sublist hSublist
  rw [List.pairwise_map] at hAttached
  exact hAttached

/-! ### Attached elements ascend -/

/-- Attached elements are listed by their places. -/
theorem pairwise_places (p : Page) (wanted : Html.Position → Bool) :
    (p.attached wanted).Pairwise fun a b => a.1 < b.1 := by
  have hAll : (p.document.positions.zipIdx.map Prod.snd).Pairwise (· < ·) := by
    rw [List.zipIdx_map_snd]
    exact List.pairwise_lt_range'
  rw [attached_eq, List.pairwise_map]
  exact (List.pairwise_map.mp hAll).sublist List.filter_sublist

theorem ascending_map_handle {found : List (Nat × Html.Position)}
    (h : found.Pairwise fun a b => a.1 < b.1) : p.Ascending (found.map fun a => p.handle a.1) := by
  refine ⟨found.map Prod.fst, ?_, List.pairwise_map.mpr h⟩
  rw [List.map_map]
  rfl

theorem ascending_handles (p : Page) : p.Ascending p.handles :=
  ascending_map_handle (p.pairwise_places _)

theorem Ascending.pairwise {found : List (Nat × Html.Position)}
    (h : p.Ascending (found.map fun a => p.handle a.1)) : found.Pairwise fun a b => a.1 < b.1 := by
  obtain ⟨places, hEq, hPlaces⟩ := h
  have hMap : (found.map Prod.fst).map p.handle = places.map p.handle := by
    rw [← hEq, List.map_map]
    rfl
  obtain rfl := List.map_injective_iff.mpr (fun _ _ h => handleOf_injective h) hMap
  exact List.pairwise_map.mp hPlaces

/-! ### Enumerations are sorted by age -/

/-- The elements that a selector matches, in the order in which they are enumerated. -/
def byAge (p : Page) (s : Css.Selector) : List (Nat × Html.Position) :=
  (p.attached fun position => s.matches none position).mergeSort fun a b => decide (NotYounger a b)

theorem matching_eq_map_byAge (p : Page) (s : Css.Selector) :
    p.matching s = (p.byAge s).map fun a => p.handle a.1 :=
  rfl

theorem byAge_perm (p : Page) (s : Css.Selector) :
    (p.byAge s).Perm (p.attached fun position => s.matches none position) :=
  List.mergeSort_perm _ _

theorem pairwise_byAge (p : Page) (s : Css.Selector) : (p.byAge s).Pairwise NotYounger := by
  have hSorted : (p.byAge s).Pairwise fun a b => decide (NotYounger a b) = true := by
    apply List.pairwise_mergeSort
    · intro a b c hab hbc
      exact decide_eq_true (Nat.le_trans (of_decide_eq_true hab) (of_decide_eq_true hbc))
    · intro a b
      simp only [Bool.or_eq_true, decide_eq_true_eq]
      exact Nat.le_total _ _
  exact hSorted.imp of_decide_eq_true

/-- Elements that were made in document order are enumerated as they stand in the document. -/
theorem MadeInOrder.byAge_eq (h : p.MadeInOrder) (s : Css.Selector) :
    p.byAge s = p.attached fun position => s.matches none position := by
  apply List.mergeSort_of_pairwise
  have hSublist : (p.attached fun position => s.matches none position).Sublist
      (p.attached fun _ => true) := p.attached_sublist _
  exact (h.sublist hSublist).imp decide_eq_true

theorem MadeInOrder.ascending (h : p.MadeInOrder) {scope : String}
    (hAnswer : p.answer (.elements scope) = .ok es) : p.Ascending es := by
  obtain ⟨s, rfl⟩ := answer_elements_eq_ok hAnswer
  rw [matching_eq_map_byAge, h.byAge_eq]
  exact ascending_map_handle (p.pairwise_places _)

theorem attached_everyElement (p : Page) :
    (p.attached fun position => everyElement.matches none position) = p.attached fun _ => true :=
  congrArg p.attached (funext fun position => everyElement_matches none position)

/-- Where the whole page is enumerated in document order, its elements were made in that order. -/
theorem madeInOrder_of_ascending (h : p.Ascending (p.matching everyElement)) : p.MadeInOrder := by
  have hPerm := p.byAge_perm everyElement
  rw [attached_everyElement] at hPerm
  have hPlaces : (p.byAge everyElement).Pairwise fun a b => a.1 < b.1 := Ascending.pairwise h
  -- Two lists of the same elements that both ascend are one list.
  have hEq : p.byAge everyElement = p.attached fun _ => true := by
    refine hPerm.eq_of_pairwise (fun a b _ _ hab hba => ?_) hPlaces (p.pairwise_places _)
    exact absurd hba (Nat.lt_asymm hab)
  have hSorted := p.pairwise_byAge everyElement
  rwa [hEq] at hSorted

theorem answer_star_eq_handles_iff :
    p.answer (.elements "*") = .ok p.handles ↔ p.MadeInOrder := by
  rw [answer_elements_star]
  constructor
  · intro h
    apply madeInOrder_of_ascending
    rw [Except.ok.inj h]
    exact p.ascending_handles
  · intro h
    rw [matching_eq_map_byAge, h.byAge_eq, attached_everyElement]
    rfl

/-! ### Document order -/

/-- A page enumerates the attached elements that a selector matches, each once, in the order in which they
were made. For all selectors this is document order just where the attached elements were made in
document order, as they are if all elements of the document were; and so it is for the selector that
admits everything, which then lists the elements as the page itself does. -/
theorem enumerates_in_document_order_iff (p : Page) :
    (∀ (scope : String) (s : Css.Selector), Css.Selector.parse? scope = some s →
      ∃ found : List (Nat × Html.Position),
        p.answer (.elements scope) = .ok (found.map fun a => p.handle a.1) ∧
        (found.map fun a => p.handle a.1).Nodup ∧
        found.Perm (p.attached fun position => s.matches none position) ∧
        found.Pairwise NotYounger) ∧
    (p.MadeInOrder ↔
      ∀ (scope : String) (es : List Handle), p.answer (.elements scope) = .ok es → p.Ascending es) ∧
    (p.MadeInOrder ↔ p.answer (.elements "*") = .ok p.handles) ∧
    (p.document.MadeInOrder → p.MadeInOrder) := by
  refine ⟨fun scope s hParse => ?_, ⟨fun h scope es hAnswer => h.ascending hAnswer, fun h => ?_⟩,
    answer_star_eq_handles_iff.symm, madeInOrder_of_document⟩
  · exact ⟨p.byAge s, answer_elements hParse, p.nodup_matching s, p.byAge_perm s, p.pairwise_byAge s⟩
  · exact madeInOrder_of_ascending (h "*" _ p.answer_elements_star)

/-- The items of a list are enumerated in document order. -/
theorem enumerates_in_document_order_twoItems :
    twoItems.MadeInOrder ∧ twoItems.answer (.elements "*") = .ok twoItems.handles := by
  have hMade : twoItems.MadeInOrder := by decide +kernel
  exact ⟨hMade, (enumerates_in_document_order_iff twoItems).2.2.1.mp hMade⟩

/-- A page with a paragraph that was written within a table: it is put in front of the table, which is
older. -/
def misplacedParagraph : Page :=
  load "https://example.org/" "<table><p>x</p></table>"

/-- The table stands behind the paragraph and is enumerated before it. -/
theorem misplacedParagraph_not_in_document_order :
    misplacedParagraph.answer (.elements "*") ≠ .ok misplacedParagraph.handles ∧
      ∃ es, misplacedParagraph.answer (.elements "*") = .ok es ∧ ¬ misplacedParagraph.Ascending es := by
  have hNot : ¬ misplacedParagraph.MadeInOrder := by decide +kernel
  refine ⟨fun h => hNot (answer_star_eq_handles_iff.mp h), _, answer_elements_star _, fun h => ?_⟩
  exact hNot (madeInOrder_of_ascending h)

end Page

end PageLogic
