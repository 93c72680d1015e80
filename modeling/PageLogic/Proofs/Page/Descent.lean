import PageLogic.Proofs.Css.Start
import PageLogic.Proofs.Html.Preorder
import PageLogic.Proofs.Page.Change
/-!
What lies beneath an element of a page. Attached elements stand in document order; the page answers for
a parent that is alive with those beneath it that a selector of the whole page matches too.
-/
namespace PageLogic.Page

variable {p : Page} {e child parent : Handle} {index : Nat} {position : Html.Position}
  {scope : String} {s : Css.Selector}

/-- The generation and the places of all elements are numbers of 64 bits, so that every handle is read
back. -/
structure Addressable (p : Page) : Prop where
  generation_lt : p.generation < Word.limit
  length_le : p.document.positions.length ≤ Word.limit

/-- The one element lies beneath the other, at whatever depth. -/
def Below (p : Page) (child parent : Handle) : Prop :=
  ∃ i j, parent = p.handle i ∧ child = p.handle j ∧
    ∃ outer inner, p.document.positions[i]? = some outer ∧
      p.document.positions[j]? = some inner ∧ outer ∈ inner.ancestors

theorem Below.exists_index (h : p.Below child parent) : ∃ j, child = p.handle j := by
  obtain ⟨_, j, _, hChild, _⟩ := h
  exact ⟨j, hChild⟩

theorem below_handle_iff {i j : Nat} :
    p.Below (p.handle j) (p.handle i) ↔
      ∃ outer inner, p.document.positions[i]? = some outer ∧
        p.document.positions[j]? = some inner ∧ outer ∈ inner.ancestors := by
  constructor
  · rintro ⟨i', j', hParent, hChild, h⟩
    obtain rfl := handleOf_injective hParent
    obtain rfl := handleOf_injective hChild
    exact h
  · exact fun h => ⟨i, j, rfl, rfl, h⟩

/-- What lies beneath an element are the elements after it, up to its count. -/
theorem below_handle_iff_between {i j : Nat} {outer inner : Html.Position}
    (hOuter : p.document.positions[i]? = some outer)
    (hInner : p.document.positions[j]? = some inner) :
    p.Below (p.handle j) (p.handle i) ↔ i < j ∧ j < i + outer.count := by
  rw [← p.document.inOrder_positions.beneath i j outer inner hOuter hInner, below_handle_iff]
  constructor
  · rintro ⟨outer', inner', hOuter', hInner', hAbove⟩
    obtain rfl := Option.some.inj (hOuter.symm.trans hOuter')
    obtain rfl := Option.some.inj (hInner.symm.trans hInner')
    exact hAbove
  · exact fun hAbove => ⟨outer, inner, hOuter, hInner, hAbove⟩

theorem not_below_self (e : Handle) : ¬ p.Below e e := by
  rintro ⟨i, j, rfl, hEq, outer, inner, hOuter, hInner, hAbove⟩
  obtain rfl := handleOf_injective hEq
  rw [hOuter] at hInner
  obtain rfl := Option.some.inj hInner
  exact Html.Position.not_mem_ancestors_self outer hAbove

theorem Below.trans {e₁ e₂ e₃ : Handle} (h : p.Below e₁ e₂) (h' : p.Below e₂ e₃) :
    p.Below e₁ e₃ := by
  obtain ⟨i, j, rfl, rfl, outer, inner, hOuter, hInner, hAbove⟩ := h
  obtain ⟨k, i', rfl, hEq, outer', inner', hOuter', hInner', hAbove'⟩ := h'
  obtain rfl := handleOf_injective hEq
  rw [hOuter] at hInner'
  obtain rfl := Option.some.inj hInner'
  exact ⟨k, j, rfl, rfl, outer', inner, hOuter', hInner,
    Html.Position.mem_ancestors_trans hAbove' hAbove⟩

/-- Of two elements above a third one, one lies beneath the other. -/
theorem Below.comparable {e₁ e₂ e₃ : Handle} (h : p.Below e₁ e₂) (h' : p.Below e₁ e₃)
    (hNe : e₂ ≠ e₃) : p.Below e₂ e₃ ∨ p.Below e₃ e₂ := by
  obtain ⟨i, j, rfl, rfl, outer, inner, hOuter, hInner, hAbove⟩ := h
  obtain ⟨i', j', rfl, hEq, outer', inner', hOuter', hInner', hAbove'⟩ := h'
  obtain rfl := handleOf_injective hEq
  obtain rfl := Option.some.inj (hInner.symm.trans hInner')
  -- The third one stands between the start and the end of both.
  have hOrder := p.document.inOrder_positions
  have hFirst := (hOrder.beneath i j outer inner hOuter hInner).mp hAbove
  have hSecond := (hOrder.beneath i' j outer' inner hOuter' hInner).mp hAbove'
  have hDifferent : i ≠ i' := fun hSame => hNe (congrArg p.handle hSame)
  rcases Nat.lt_or_gt_of_ne hDifferent with hLt | hGt
  · exact .inr ((below_handle_iff_between hOuter hOuter').mpr ⟨hLt, by omega⟩)
  · exact .inl ((below_handle_iff_between hOuter' hOuter).mpr ⟨hGt, by omega⟩)

/-! ### Attached elements in document order -/

theorem mem_handles :
    p.handle index ∈ p.handles ↔
      (∃ position, p.document.positions[index]? = some position) ∧ index ∉ p.detached := by
  unfold handles
  rw [List.mem_map]
  constructor
  · rintro ⟨⟨i, position⟩, hMem, hHandle⟩
    obtain rfl := handleOf_injective hHandle
    obtain ⟨hPosition, _, hAttached⟩ := mem_attached.mp hMem
    exact ⟨⟨position, hPosition⟩, hAttached⟩
  · rintro ⟨⟨position, hPosition⟩, hAttached⟩
    exact ⟨(index, position), mem_attached.mpr ⟨hPosition, rfl, hAttached⟩, rfl⟩

/-- The elements that satisfy a condition stand among all others as they do by themselves. -/
theorem attached_sublist (p : Page) (wanted : Html.Position → Bool) :
    (p.attached wanted).Sublist (p.attached fun _ => true) := by
  rw [attached_eq, attached_eq]
  refine List.Sublist.map _ (List.monotone_filter_right _ fun a ha => ?_)
  simp only [Bool.and_eq_true] at ha
  exact ha.2

/-- What is found beneath an element is in document order. -/
theorem matchingBelow_sublist (p : Page) (index : Nat) (position : Html.Position)
    (s : Css.Selector) : (p.matchingBelow index position s).Sublist p.handles :=
  (List.filter_sublist.trans (p.attached_sublist _)).map _

/-! ### What is found beneath -/

/-- Without `:scope`, the elements found beneath a parent are those of the whole page that lie beneath
it. -/
theorem mem_matchingBelow (hScope : s.mentionsScope = false)
    (hPosition : p.document.positions[index]? = some position) :
    child ∈ p.matchingBelow index position s ↔
      child ∈ p.handles ∧ child ∈ p.matching s ∧ p.Below child (p.handle index) := by
  unfold matchingBelow
  rw [List.mem_map]
  constructor
  · rintro ⟨⟨j, inner⟩, hMem, rfl⟩
    obtain ⟨hFound, hBetween⟩ := List.mem_filter.mp hMem
    obtain ⟨hInner, hMatches, hAttached⟩ := mem_attached.mp hFound
    rw [Css.Selector.matches_congr hScope _ none] at hMatches
    simp only [Bool.and_eq_true, decide_eq_true_eq] at hBetween
    exact ⟨mem_handles.mpr ⟨⟨inner, hInner⟩, hAttached⟩,
      mem_matching.mpr ⟨inner, hInner, hMatches, hAttached⟩,
      (below_handle_iff_between hPosition hInner).mpr hBetween⟩
  · rintro ⟨_, hMatching, hBelow⟩
    obtain ⟨j, rfl⟩ := hBelow.exists_index
    obtain ⟨inner, hInner, hMatches, hAttached⟩ := mem_matching.mp hMatching
    rw [Css.Selector.matches_congr hScope none (some position.element)] at hMatches
    have hBetween := (below_handle_iff_between hPosition hInner).mp hBelow
    refine ⟨(j, inner), List.mem_filter.mpr ⟨?_, by simpa using hBetween⟩, rfl⟩
    exact mem_attached.mpr ⟨hInner, hMatches, hAttached⟩

/-- The page answers for the elements that are alive. -/
theorem inspect_of_alive (hAddressable : p.Addressable) (h : p.Alive e) :
    ∃ index position, e = p.handle index ∧ p.document.positions[index]? = some position ∧
      p.inspect e = .ok (index, position) := by
  obtain ⟨index, position, rfl, hPosition, hAttached, hFault⟩ := h
  refine ⟨index, position, rfl, hPosition, ?_⟩
  have hIndex : index < Word.limit :=
    (List.getElem?_eq_some_iff.mp hPosition).1.trans_le hAddressable.length_le
  have hParse : parseHandle (p.handle index) = some (p.generation, index) :=
    (parseHandle_handleOf p.generation index).trans (if_pos ⟨hAddressable.generation_lt, hIndex⟩)
  have hFound : p.positions[index]? = some position := by simpa [positions] using hPosition
  simp [inspect, hParse, hAttached, hFound, hFault]

theorem answer_elements (h : Css.Selector.parse? scope = some s) :
    p.answer (.elements scope) = .ok (p.matching s) := by
  simp only [answer, selector, h]
  rfl

/-- Beneath a parent that the page issued lies what it finds there, if the parent is alive, and nothing
otherwise. -/
theorem mem_below_iff {c : Context} (hAddressable : p.Addressable)
    (hParse : Css.Selector.parse? c.scope.child = some s) (hScope : s.mentionsScope = false)
    (hIssued : p.Issued parent) :
    child ∈ Relation.below p.answer c parent ↔
      p.Alive parent ∧ child ∈ p.handles ∧ child ∈ p.matching s ∧ p.Below child parent := by
  have hSelector : selector c.scope.child = .ok s := by rw [selector, hParse]
  cases hInspect : p.inspect parent with
  | ok found =>
      obtain ⟨index, position⟩ := found
      obtain ⟨hRead, _, hPosition⟩ := inspect_eq_ok hInspect
      obtain rfl := hIssued.eq_handle hRead
      have hBelow : Relation.below p.answer c (p.handle index) =
          p.matchingBelow index position s := by
        simp only [Relation.below, answer, hInspect, hSelector, Except.map]
      rw [hBelow, mem_matchingBelow hScope hPosition]
      exact (and_iff_right (alive_of_inspect hInspect).2).symm
  | error f =>
      have hBelow : Relation.below p.answer c parent = [] := by
        simp only [Relation.below, answer, hInspect]
      have hDead : ¬ p.Alive parent := by
        intro hAlive
        obtain ⟨_, _, _, _, hOk⟩ := inspect_of_alive hAddressable hAlive
        rw [hInspect] at hOk
        cases hOk
      simp [hBelow, hDead]

/-- What lies beneath a parent is in document order. -/
theorem below_sublist (p : Page) (c : Context) (parent : Handle) :
    (Relation.below p.answer c parent).Sublist p.handles := by
  unfold Relation.below
  split
  · next es hAnswer =>
      obtain ⟨found, s, _, rfl⟩ := answer_descendants_eq_ok hAnswer
      exact p.matchingBelow_sublist found.1 found.2 s
  · exact List.nil_sublist _

/-! ### A page with a list -/

/-- A page with the elements `html`, `head`, `body`, `ul`, `li` and `li`. -/
def twoItems : Page :=
  load "https://example.org/" "<ul><li>one<li>two</ul>"

theorem length_twoItems : twoItems.document.positions.length = 6 := by
  decide +kernel

theorem exists_position_twoItems (index : Nat) (h : index < 6) :
    ∃ position, twoItems.document.positions[index]? = some position :=
  ⟨_, List.getElem?_eq_getElem (length_twoItems ▸ h)⟩

/-- The second item lies beneath the list. -/
theorem below_twoItems : twoItems.Below (twoItems.handle 5) (twoItems.handle 3) := by
  obtain ⟨list, hList⟩ := exists_position_twoItems 3 (by decide)
  obtain ⟨item, hItem⟩ := exists_position_twoItems 5 (by decide)
  have hCount : list.count = 3 := by
    have hCounted : twoItems.document.positions[3]?.map (·.count) = some 3 := by decide +kernel
    rw [hList] at hCounted
    exact Option.some.inj hCounted
  rw [below_handle_iff_between hList hItem, hCount]
  decide

end PageLogic.Page
