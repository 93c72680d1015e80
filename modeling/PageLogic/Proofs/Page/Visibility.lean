import PageLogic.Proofs.Page.Lifecycle
/-!
What is seen of a page. An element that hides itself hides everything beneath it, so that what is
displayed or visible stands in elements that are displayed or visible. What is visible is displayed
and present.
-/
namespace PageLogic

namespace Html.Position

variable {p q : Position}

theorem mem_selfAndAncestors_of_mem {r : Position} (h : p ∈ q.ancestors)
    (hr : r ∈ p.selfAndAncestors) : r ∈ q.selfAndAncestors := by
  rcases List.mem_cons.mp hr with rfl | hr
  · exact List.mem_cons_of_mem _ h
  · exact List.mem_cons_of_mem _ (mem_ancestors_trans hr h)

/-- What holds of an element and of all elements above it holds so of each element above it. -/
theorem all_selfAndAncestors_of_mem {test : Position → Bool} (h : p ∈ q.ancestors)
    (hq : q.selfAndAncestors.all test = true) : p.selfAndAncestors.all test = true := by
  rw [List.all_eq_true] at hq ⊢
  exact fun r hr => hq r (mem_selfAndAncestors_of_mem h hr)

theorem isRendered_of_mem_ancestors (h : p ∈ q.ancestors) (hq : q.isRendered = true) :
    p.isRendered = true :=
  all_selfAndAncestors_of_mem h hq

theorem isShown_of_mem_ancestors (h : p ∈ q.ancestors) (hq : q.isShown = true) :
    p.isShown = true := by
  simp only [isShown, Bool.and_eq_true] at hq ⊢
  exact ⟨isRendered_of_mem_ancestors h hq.1, all_selfAndAncestors_of_mem h hq.2⟩

end Html.Position

namespace Page

variable {p : Page} {e above : Handle}

/-! ### Elements for which the page answers -/

/-- The element that the handle names was given no fault. -/
def Faultless (p : Page) (e : Handle) : Prop :=
  ∀ index, e = p.handle index → p.faults.lookup index = none

theorem alive_iff : p.Alive e ↔ e ∈ p.handles ∧ p.Faultless e := by
  constructor
  · rintro ⟨index, position, rfl, hPosition, hAttached, hFault⟩
    refine ⟨mem_handles.mpr ⟨⟨position, hPosition⟩, hAttached⟩, fun index' hEq => ?_⟩
    exact handleOf_injective hEq ▸ hFault
  · rintro ⟨hHandle, hFaultless⟩
    obtain ⟨a, _, rfl⟩ := List.mem_map.mp hHandle
    obtain ⟨⟨position, hPosition⟩, hAttached⟩ := mem_handles.mp hHandle
    exact ⟨a.1, position, rfl, hPosition, hAttached, hFaultless a.1 rfl⟩

theorem aboutElement_eq_ok {α : Type} {f : Nat → Html.Position → α} {x : α}
    (h : p.aboutElement e f = .ok x) :
    ∃ index position, p.inspect e = .ok (index, position) ∧ f index position = x := by
  unfold aboutElement at h
  cases hInspect : p.inspect e with
  | error fault =>
      rw [hInspect] at h
      cases h
  | ok found =>
      rw [hInspect] at h
      exact ⟨found.1, found.2, rfl, Except.ok.inj h⟩

theorem aboutElement_of_inspect {α : Type} {f : Nat → Html.Position → α} {index : Nat}
    {position : Html.Position} (h : p.inspect e = .ok (index, position)) :
    p.aboutElement e f = .ok (f index position) := by
  rw [aboutElement, h]
  rfl

/-- Where the page answers for an element, it answers for the elements above it that are alive: their
places are no larger numbers. -/
theorem inspect_above {index : Nat} {position : Html.Position} (hBelow : p.Below e above)
    (hInspect : p.inspect e = .ok (index, position)) (hAlive : p.Alive above) :
    ∃ index' position', p.inspect above = .ok (index', position') ∧
      position' ∈ position.ancestors := by
  obtain ⟨i, j, rfl, rfl, outer, inner, hOuter, hInner, hAbove⟩ := hBelow
  obtain ⟨i', outer', hEq, hOuter', hAttached, hFault⟩ := hAlive
  obtain rfl := handleOf_injective hEq
  obtain ⟨hParse, _, hPosition⟩ := inspect_eq_ok hInspect
  obtain ⟨_, rfl⟩ := eq_of_parseHandle_handleOf hParse
  obtain rfl := Option.some.inj (hInner.symm.trans hPosition)
  have hLimit := lt_limit_of_parseHandle hParse
  have hBefore := ((p.document.inOrder_positions.beneath i _ outer _ hOuter hInner).mp hAbove).1
  have hParse' : parseHandle (p.handle i) = some (p.generation, i) :=
    (parseHandle_handleOf p.generation i).trans (if_pos ⟨hLimit.1, hBefore.trans hLimit.2⟩)
  have hFound : p.positions[i]? = some outer := by simpa [positions] using hOuter
  refine ⟨i, outer, ?_, hAbove⟩
  simp [inspect, hParse', hAttached, hFound, hFault]

/-- What the page says of an element, it says of the elements above it that are alive, if it goes
upward in the document. -/
theorem aboutElement_above {test : Html.Position → Bool} (hBelow : p.Below e above)
    (hAlive : p.Alive above)
    (hUpward : ∀ outer inner : Html.Position, outer ∈ inner.ancestors → test inner = true →
      test outer = true)
    (h : p.aboutElement e (fun _ position => test position) = .ok true) :
    p.aboutElement above (fun _ position => test position) = .ok true := by
  obtain ⟨index, inner, hInspect, hInner⟩ := aboutElement_eq_ok h
  obtain ⟨index', outer, hInspect', hAbove⟩ := inspect_above hBelow hInspect hAlive
  rw [aboutElement_of_inspect hInspect', hUpward outer inner hAbove hInner]

/-- An element is present if it is displayed; a fault that says otherwise is the same for both. -/
theorem run_present (p : Page) (e : Handle) :
    ((Reading.present e).run oracle p).1 = p.answer (.displayed e) := by
  have hNext : ({ p with calls := p.calls + 1 } : Page).answer (.displayed e) =
      p.answer (.displayed e) := p.answer_calls _ _
  cases hInspect : p.inspect e with
  | error fault =>
      simp [Reading.present, Reading.of, Reading.andThen, Reading.run, oracle, answer, aboutElement,
        hInspect, Except.map]
  | ok found =>
      have hExists : p.aboutElement e (fun _ _ => true) = .ok true := aboutElement_of_inspect hInspect
      simp only [Reading.present, Reading.of, Reading.andThen, Reading.run, oracle,
        show p.answer (.exists e) = .ok true from hExists, id, if_true, hNext]
      cases p.answer (.displayed e) <;> rfl

/-! ### Sight along the tree -/

/-- In every state that a page reaches, what is visible is displayed and present, and the elements above
an attached one, unless they were given a fault, are alive, are displayed if it is displayed and visible
if it is visible. -/
theorem sight_is_inherited (url source : String) (ops : List Operation) (e : Handle) :
    let p := (load url source).performAll ops
    (p.answer (.visible e) = .ok true →
      p.answer (.displayed e) = .ok true ∧ ((Reading.present e).run oracle p).1 = .ok true) ∧
    ∀ above : Handle, p.Below e above → e ∈ p.handles → p.Faultless above →
      p.Alive above ∧
      (p.answer (.exists e) = .ok true → p.answer (.exists above) = .ok true) ∧
      (p.answer (.displayed e) = .ok true → p.answer (.displayed above) = .ok true) ∧
      (p.answer (.visible e) = .ok true → p.answer (.visible above) = .ok true) := by
  intro p
  constructor
  · intro (hVisible : p.aboutElement e (fun _ position => position.isShown) = .ok true)
    obtain ⟨index, position, hInspect, hShown⟩ := aboutElement_eq_ok hVisible
    have hDisplayed : p.aboutElement e (fun _ position => position.isRendered) = .ok true := by
      rw [aboutElement_of_inspect hInspect, Html.Position.isRendered_of_isShown hShown]
    exact ⟨hDisplayed, (run_present p e).trans hDisplayed⟩
  · intro above hBelow hHandle hFaultless
    have hClosed : p.DetachedBelow :=
      performAll_induction (fun _ _ _ hi => nomatch hi) (fun _ op h => h.perform op) ops
    have hAlive : p.Alive above := alive_iff.mpr ⟨hClosed.mem_handles hBelow hHandle, hFaultless⟩
    exact ⟨hAlive, aboutElement_above hBelow hAlive fun _ _ _ _ => rfl,
      aboutElement_above hBelow hAlive fun _ _ => Html.Position.isRendered_of_mem_ancestors,
      aboutElement_above hBelow hAlive fun _ _ => Html.Position.isShown_of_mem_ancestors⟩

/-- When another item has been taken out, an item is visible still, and so is the list around it. -/
theorem sight_is_inherited_twoItems :
    let p := twoItems.performAll [.change (.detach (twoItems.handle 4)), .ask .title]
    let item := twoItems.handle 5
    let list := twoItems.handle 3
    p.Below item list ∧ item ∈ p.handles ∧ p.Faultless list ∧
      p.answer (.visible item) = .ok true ∧ p.answer (.displayed item) = .ok true ∧
      p.answer (.visible list) = .ok true := by
  intro p item list
  obtain ⟨other, hOther⟩ := exists_position_twoItems 4 (by decide)
  have hCurrent : twoItems.currentIndex (twoItems.handle 4) = some 4 := by decide +kernel
  have hPage : p = (oracle.answer .title { twoItems with
      detached := List.range' 4 other.count ++ twoItems.detached }).2 :=
    congrArg (fun p => (oracle.answer .title p).2) (detach_eq hCurrent hOther)
  have hBelow : p.Below item list := by
    rw [hPage]
    exact below_twoItems
  have hFaultless : p.Faultless list := by
    rw [hPage]
    exact fun _ _ => rfl
  have hItem : item ∈ p.handles := by decide +kernel
  have hVisible : p.answer (.visible item) = .ok true := by decide +kernel
  obtain ⟨hSeen, hAbove⟩ := sight_is_inherited "https://example.org/" "<ul><li>one<li>two</ul>"
    [.change (.detach (twoItems.handle 4)), .ask .title] item
  exact ⟨hBelow, hItem, hFaultless, hVisible, (hSeen hVisible).1,
    (hAbove list hBelow hItem hFaultless).2.2.2 hVisible⟩

end Page

end PageLogic
