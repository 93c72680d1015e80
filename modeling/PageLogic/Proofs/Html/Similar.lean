import PageLogic.Html.Rendering
import PageLogic.Proofs.Html.Preorder
import Mathlib.Data.List.Forall2
/-!
Elements that look alike from below. What an element says of itself, and what the elements above it say
of themselves, decides whether the element is rendered and shown, whatever stands beside and beneath.
-/
namespace PageLogic.Html.Position

variable {p q r : Position}

/-- Two elements say the same of themselves, and so do the elements above them. -/
def Similar (p q : Position) : Prop :=
  p.chain.map Place.element = q.chain.map Place.element

theorem Similar.refl (p : Position) : p.Similar p :=
  rfl

theorem Similar.element_eq (h : p.Similar q) : p.element = q.element :=
  (List.cons.inj h).1

theorem similar_iff : p.Similar q ↔
    p.element = q.element ∧ p.above.map Place.element = q.above.map Place.element := by
  unfold Similar chain
  rw [List.map_cons, List.map_cons, List.cons.injEq]
  rfl

theorem Similar.isOutermost_eq (h : p.Similar q) : p.isOutermost = q.isOutermost := by
  have hAbove := congrArg List.isEmpty (similar_iff.mp h).2
  simpa [isOutermost] using hAbove

/-- The ancestors of similar elements are similar, pair by pair. -/
theorem forall₂_similar_along : ∀ {l m : List Place}, l.map Place.element = m.map Place.element →
    List.Forall₂ Similar (along l) (along m)
  | [], [], _ => .nil
  | _ :: _, _ :: _, h => .cons h (forall₂_similar_along (List.cons.inj h).2)

theorem Similar.ancestors (h : p.Similar q) : List.Forall₂ Similar p.ancestors q.ancestors :=
  forall₂_similar_along (similar_iff.mp h).2

/-- A test of what elements say holds of all similar elements alike. -/
theorem all_congr_of_similar {l m : List Position} (h : List.Forall₂ Similar l m)
    (test : Element → Bool) : (l.all fun a => test a.element) = m.all fun a => test a.element := by
  induction h with
  | nil => rfl
  | cons hHead _ ih => rw [List.all_cons, List.all_cons, ih, hHead.element_eq]

theorem Similar.selfAndAncestors (h : p.Similar q) :
    List.Forall₂ Similar p.selfAndAncestors q.selfAndAncestors :=
  .cons h h.ancestors

theorem Similar.isRendered_eq (h : p.Similar q) : p.isRendered = q.isRendered :=
  all_congr_of_similar h.selfAndAncestors fun e => !e.isUnrendered

theorem Similar.isShown_eq (h : p.Similar q) : p.isShown = q.isShown := by
  have hVisible := all_congr_of_similar h.selfAndAncestors fun e => !e.isTransparent
  rw [isShown, isShown, h.isRendered_eq, hVisible]

end PageLogic.Html.Position
