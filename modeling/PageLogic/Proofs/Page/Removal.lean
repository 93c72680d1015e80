import PageLogic.Proofs.Css.Upward
import PageLogic.Proofs.Html.Pruning
import PageLogic.Proofs.Page.Renaming
/-!
What remains of a page. A page that takes out an element keeps its document and remembers what is gone. Most
answers are those of the page whose document lacks the element, but not all of them: the text of elements
above, the title, and selectors that look at siblings or at what lies beneath still see what is gone.
-/
namespace PageLogic

open Html.Position (Outside closeGap)

/-- The selector in a question. -/
def Question.scope? : Question → Option String
  | .elements scope | .descendants _ scope => some scope
  | _ => none

namespace Page

variable {p : Page} {e : Handle} {index width j : Nat} {r position : Html.Position}

/-! ### Lists -/

/-- Lists that are related one by one stay so when they are sorted by the same measure. -/
theorem forall₂_mergeSort {α β : Type} {R : α → β → Prop} {f : α → Nat} {g : β → Nat}
    (hMeasure : ∀ a b, R a b → f a = g b) {l : List α} {m : List β} (h : List.Forall₂ R l m) :
    List.Forall₂ R (l.mergeSort fun a b => f a ≤ f b) (m.mergeSort fun a b => g a ≤ g b) := by
  have hPairs : ∀ c ∈ l.zip m, R c.1 c.2 := fun _ hc => List.forall₂_zip h hc
  -- Both are projections of the pairs, sorted by the first component.
  let sorted := (l.zip m).mergeSort fun a b => f a.1 ≤ f b.1
  have hLeft : sorted.map Prod.fst = l.mergeSort fun a b => f a ≤ f b := by
    rw [List.map_mergeSort (s := fun a b => decide (f a ≤ f b)) fun _ _ _ _ => rfl,
      List.map_fst_zip h.length_eq.le]
  have hRight : sorted.map Prod.snd = m.mergeSort fun a b => g a ≤ g b := by
    rw [List.map_mergeSort (s := fun a b => decide (g a ≤ g b)) fun a ha b hb => ?_,
      List.map_snd_zip h.length_eq.ge]
    rw [hMeasure _ _ (hPairs a ha), hMeasure _ _ (hPairs b hb)]
  rw [← hLeft, ← hRight, List.forall₂_map_left_iff, List.forall₂_map_right_iff, List.forall₂_same]
  exact fun c hc => hPairs c (List.mem_mergeSort.mp hc)

/-- What is known of places outside of a gap, when the gap closes. -/
def closeAll {α : Type} (start width : Nat) (known : List (Nat × α)) : List (Nat × α) :=
  (known.filter fun a => decide (Outside start width a.1)).map fun a => (closeGap start width a.1, a.2)

theorem lookup_closeAll {α : Type} (known : List (Nat × α)) (hj : Outside index width j) :
    (closeAll index width known).lookup (closeGap index width j) = known.lookup j := by
  induction known with
  | nil => rfl
  | cons a known ih =>
      unfold closeAll at ih ⊢
      rw [List.lookup_cons]
      by_cases hOutside : Outside index width a.1
      · rw [List.filter_cons, if_pos (decide_eq_true hOutside), List.map_cons, List.lookup_cons, ih]
        have hSame : (closeGap index width j == closeGap index width a.1) = (j == a.1) := by
          rw [Bool.eq_iff_iff, beq_iff_eq, beq_iff_eq]
          exact ⟨Html.Position.closeGap_injOn hj hOutside, congrArg _⟩
        rw [hSame]
      · have hOther : (j == a.1) = false := by
          rw [beq_eq_false_iff_ne]
          rintro rfl
          exact hOutside hj
        rw [List.filter_cons, if_neg (by simpa using hOutside), ih, hOther]

theorem mem_closeGap_iff (places : List Nat) (hj : Outside index width j) :
    closeGap index width j ∈
      (places.filter fun i => decide (Outside index width i)).map (closeGap index width) ↔
        j ∈ places := by
  rw [List.mem_map]
  constructor
  · rintro ⟨i, hi, hEq⟩
    obtain ⟨hMem, hOutside⟩ := List.mem_filter.mp hi
    rwa [← Html.Position.closeGap_injOn (of_decide_eq_true hOutside) hj hEq]
  · exact fun hMem => ⟨j, List.mem_filter.mpr ⟨hMem, decide_eq_true hj⟩, rfl⟩

theorem closeGap_le (j : Nat) : closeGap index width j ≤ j := by
  unfold closeGap
  split <;> omega

/-! ### The page without an element -/

/-- The page whose document lacks the element at a place, with the `width` elements of its subtree. What is
known of the others is known of them at the places to which the gap closes. -/
def pruned (p : Page) (index width : Nat) : Page :=
  { p with
    document := p.document.without index
    detached := (p.detached.filter fun i => decide (Outside index width i)).map (closeGap index width)
    boxes := closeAll index width p.boxes
    faults := closeAll index width p.faults }

/-- The handle of the same element when the gap closes. -/
def closing (index width : Nat) : Handle → Handle :=
  relabel fun generation j => (generation, closeGap index width j)

@[simp] theorem closing_handle (j : Nat) :
    closing index width (p.handle j) = (p.pruned index width).handle (closeGap index width j) :=
  relabel_handleOf _ p.generation j

/-- The handle is that of a place outside of what is taken out, and it is read back. -/
def Remaining (p : Page) (index width : Nat) (e : Handle) : Prop :=
  ∃ j, e = p.handle j ∧ p.currentIndex e = some j ∧ Outside index width j

/-- The question sees nothing of what is taken out: it is about an element that remains, and a text that is
asked for is not that of an element above `r`; a selector looks upward only; and a title that is asked for
is not within or above `r`, as far as it is the oldest one. -/
structure Unaffected (p : Page) (index : Nat) (r : Html.Position) (q : Question) : Prop where
  remaining : ∀ e, q.subject? = some e → p.Remaining index r.count e
  text : ∀ e, q = .text e → ∀ j position, e = p.handle j →
    p.document.positions[j]? = some position → position ∉ r.ancestors
  upward : ∀ scope s, q.scope? = some scope → Css.Selector.parse? scope = some s →
    s.looksUpward = true
  title : q = .title → (∀ above ∈ r.ancestors, above.element.name ≠ "title") ∧
    ∀ a ∈ r.node.titles, ∃ b ∈ (p.document.without index).titles, b.1.birth < a.1.birth

/-- An attached element and what remains of it, with their places. -/
structure Moved (r : Html.Position) (index : Nat) (a b : Nat × Html.Position) : Prop where
  remains : r.Remains a.2 b.2
  outside : Outside index r.count a.1
  place : b.1 = closeGap index r.count a.1

theorem handle_detach (p : Page) (e : Handle) (j : Nat) : (p.detach e).handle j = p.handle j := by
  rw [handle, handle, generation_detach]

/-- What remains has the handles to which the gap closes. -/
theorem map_closing {found found' : List (Nat × Html.Position)}
    (h : List.Forall₂ (Moved r index) found found') :
    (found'.map fun a => (p.pruned index r.count).handle a.1) =
      (found.map fun a => (p.detach e).handle a.1).map (closing index r.count) := by
  induction h with
  | nil => rfl
  | cons hHead _ ih =>
      rw [List.map_cons, List.map_cons, List.map_cons, ih, handle_detach, closing_handle, hHead.place]

/-- The subtree of an element that remains ends in front of the gap, or starts behind it, or holds it. -/
theorem count_cases {position' : Html.Position} (hPosition : p.document.positions[index]? = some r)
    (hFound : p.document.positions[j]? = some position) (hRemains : r.Remains position position') :
    ¬ (j < index ∧ index < j + position.count) ∧ position.count = position'.count ∨
      (j < index ∧ index + r.count ≤ j + position.count) ∧
        position.count = position'.count + r.count := by
  have hOrder := p.document.inOrder_positions
  have hBeneath := hOrder.beneath j index position r hFound hPosition
  rcases hRemains.count_cases with ⟨hNot, hSame⟩ | ⟨hAbove, hLess⟩
  · exact .inl ⟨fun h => hNot (hBeneath.mpr h), hSame⟩
  · exact .inr ⟨⟨(hBeneath.mp hAbove).1, hOrder.add_count_le hFound hPosition hAbove⟩, hLess⟩

section

variable (hIndex : p.currentIndex e = some index) (hInner : 0 < index)
  (hPosition : p.document.positions[index]? = some r)
include hIndex hInner hPosition

/-- The elements that remain are attached as before. -/
theorem forall₂_attached {wanted wanted' : Html.Position → Bool}
    (hWanted : ∀ a b, r.Remains a b → wanted a = wanted' b) :
    List.Forall₂ (Moved r index) ((p.detach e).attached wanted)
      ((p.pruned index r.count).attached wanted') := by
  have hSplits := Html.Document.splits_without hInner hPosition
  -- To be attached is to be outside of what is taken out, and to have been attached before.
  have hAttached : (p.document.positions.zipIdx.filter fun a =>
        wanted a.1 && !(List.range' index r.count ++ p.detached).contains a.2) =
      (p.document.positions.zipIdx.filter fun a => decide (Outside index r.count a.2)).filter fun a =>
        wanted a.1 && !p.detached.contains a.2 := by
    rw [List.filter_filter]
    refine List.filter_congr fun a _ => ?_
    have hOutside : decide (Outside index r.count a.2) = !(List.range' index r.count).contains a.2 := by
      rw [Bool.eq_iff_iff, decide_eq_true_eq, Bool.not_eq_true', ← Bool.not_eq_true,
        List.contains_iff_mem, List.mem_range'_1]
      unfold Outside
      omega
    rw [hOutside, List.contains_append, Bool.not_or, Bool.and_assoc,
      Bool.and_comm (!p.detached.contains a.2)]
  rw [detach_eq hIndex hPosition, attached_eq, attached_eq, List.forall₂_map_left_iff,
    List.forall₂_map_right_iff]
  show List.Forall₂ _ (p.document.positions.zipIdx.filter fun a =>
    wanted a.1 && !(List.range' index r.count ++ p.detached).contains a.2) _
  rw [hAttached]
  have hMoved := hSplits.forall₂_zipIdx.imp fun a b h =>
    (⟨h.1, h.2.1, h.2.2⟩ : Moved r index a.swap b.swap)
  refine List.rel_filter (fun a b h => ?_) hMoved
  have hPlace : b.2 = closeGap index r.count a.2 := h.place
  have hGone : (p.pruned index r.count).detached.contains b.2 = p.detached.contains a.2 := by
    rw [Bool.eq_iff_iff, List.contains_iff_mem, List.contains_iff_mem, hPlace]
    exact mem_closeGap_iff p.detached h.outside
  have hKept : wanted a.1 = wanted' b.1 := hWanted _ _ h.remains
  show (wanted a.1 && !p.detached.contains a.2) = true ↔
    (wanted' b.1 && !(p.pruned index r.count).detached.contains b.2) = true
  rw [hKept, hGone]

theorem handles_pruned :
    (p.pruned index r.count).handles = (p.detach e).handles.map (closing index r.count) :=
  map_closing (forall₂_attached hIndex hInner hPosition fun _ _ _ => rfl)

theorem matching_pruned {s : Css.Selector} (hUpward : s.looksUpward = true) :
    (p.pruned index r.count).matching s = ((p.detach e).matching s).map (closing index r.count) := by
  have hFound := forall₂_attached hIndex hInner hPosition fun a b (h : r.Remains a b) =>
    s.matches_similar hUpward none h.similar
  have hAge : ∀ a b, Moved r index a b → a.2.element.birth = b.2.element.birth := by
    intro a b h
    rw [h.remains.element_eq]
  exact map_closing (forall₂_mergeSort hAge hFound)

theorem matchingBelow_pruned {s : Css.Selector} (hUpward : s.looksUpward = true)
    {position' : Html.Position} (hOutside : Outside index r.count j)
    (hFound : p.document.positions[j]? = some position) (hRemains : r.Remains position position') :
    (p.pruned index r.count).matchingBelow (closeGap index r.count j) position' s =
      ((p.detach e).matchingBelow j position s).map (closing index r.count) := by
  have hAttached := forall₂_attached hIndex hInner hPosition fun a b (h : r.Remains a b) =>
    (s.matches_similar hUpward (some position.element) h.similar).trans
      (by rw [hRemains.element_eq] : _ = s.matches (some position'.element) b)
  refine map_closing (List.rel_filter (fun a b hMoved => ?_) hAttached)
  have hBetween := Html.Position.between_closeGap_iff hMoved.outside hOutside
    (count_cases hPosition hFound hRemains)
  rw [← hMoved.place] at hBetween
  simpa using hBetween.symm

theorem byId_pruned (id : String) :
    (∃ j, (p.detach e).byId id = some (p.handle j) ∧ ¬ Outside index r.count j) ∨
      (p.pruned index r.count).byId id = ((p.detach e).byId id).map (closing index r.count) := by
  have hSplits := Html.Document.splits_without hInner hPosition
  have hSame (a b : Html.Position) (h : r.Remains a b) :
      (a.element.id? == some id) = (b.element.id? == some id) := by
    rw [h.element_eq]
  have hHandle : (p.detach e).handle = p.handle := funext (p.handle_detach e)
  rw [byId, byId, hHandle, detach_eq hIndex hPosition]
  rcases hSplits.findIdx?_cases hSame with ⟨j, hFirst, hGone⟩ | hFirst
  · exact .inl ⟨j, by rw [hFirst, Option.map_some], hGone⟩
  · refine .inr ?_
    show ((p.document.without index).positions.findIdx? _).map _ = _
    rw [hFirst, Option.map_map, Option.map_map]
    refine Option.map_congr fun j _ => ?_
    rw [Function.comp_apply, Function.comp_apply, closing_handle]

/-- An element that remains, and what is left of it, do not differ in what an unaffected question asks. -/
theorem counterparts_pruned {q : Question} (h : p.Unaffected index r q)
    (hSubject : q.subject? = some (p.handle j)) (hOutside : Outside index r.count j)
    {position' : Html.Position} (hFound : p.document.positions[j]? = some position)
    (hRemains : r.Remains position position') :
    Counterparts (closing index r.count) (p.detach e) (p.pruned index r.count) q j position
      (closeGap index r.count j) position' where
  box := by
    rw [detach_eq hIndex hPosition]
    exact (lookup_closeAll p.boxes hOutside).symm
  similar := hRemains.similar
  text e' hText := by
    subst hText
    have hNot := h.text e' rfl j position (Option.some.inj hSubject) hFound
    rcases hRemains.fullText_cases with ⟨_, hSame⟩ | ⟨hAbove, _⟩
    · rw [textOf, textOf, hSame]
    · exact absurd hAbove hNot
  beneath e' scope s hDescendants hParse := by
    subst hDescendants
    exact matchingBelow_pruned hIndex hInner hPosition (h.upward scope s rfl hParse) hOutside hFound
      hRemains

/-- An element that remains is found as before. -/
theorem findsAlike_pruned {q : Question} (h : p.Unaffected index r q) {e' : Handle}
    (hSubject : q.subject? = some e') :
    FindsAlike (closing index r.count) (p.detach e) (p.pruned index r.count) q e' := by
  have hSplits := Html.Document.splits_without hInner hPosition
  obtain ⟨j, rfl, hCurrent, hOutside⟩ := h.remaining e' hSubject
  have hRead := parseHandle_of_currentIndex hCurrent
  have hRead' : parseHandle (closing index r.count (p.handle j)) =
      some (p.generation, closeGap index r.count j) := by
    obtain ⟨hGeneration, hPlace⟩ := lt_limit_of_parseHandle hRead
    rw [closing_handle]
    exact (parseHandle_handleOf _ _).trans (if_pos ⟨hGeneration, (closeGap_le j).trans_lt hPlace⟩)
  have hPlaces : p.document.positions[j]? = none ∧
        (p.pruned index r.count).document.positions[closeGap index r.count j]? = none ∨
      ∃ position position', p.document.positions[j]? = some position ∧
        (p.pruned index r.count).document.positions[closeGap index r.count j]? = some position' ∧
        Counterparts (closing index r.count) (p.detach e) (p.pruned index r.count) q j position
          (closeGap index r.count j) position' := by
    refine (hSplits.getElem?_closeGap hOutside).imp_right ?_
    rintro ⟨position, position', hFound, hFound', hRemains⟩
    exact ⟨position, position', hFound, hFound',
      counterparts_pruned hIndex hInner hPosition h hSubject hOutside hFound hRemains⟩
  rw [detach_eq hIndex hPosition] at hPlaces ⊢
  refine .of_places hRead hRead' ?_ (lookup_closeAll p.faults hOutside).symm hPlaces
  rw [List.mem_append, List.mem_range'_1]
  have hGone := mem_closeGap_iff p.detached hOutside
  unfold Outside at hOutside
  exact (or_iff_right (by omega)).trans hGone.symm

theorem mirrors_pruned {q : Question} (h : p.Unaffected index r q) :
    Mirrors (closing index r.count) (p.detach e) (p.pruned index r.count) q where
  subject _ hSubject := findsAlike_pruned hIndex hInner hPosition h hSubject
  elements scope s hq hParse :=
    matching_pruned hIndex hInner hPosition (h.upward scope s (hq ▸ rfl) hParse)
  title hq := by
    rw [detach_eq hIndex hPosition]
    exact Html.Document.title_without hInner hPosition (h.title hq).1 (h.title hq).2
  url := by
    rw [detach_eq hIndex hPosition]
    rfl
  pageFault := by
    rw [detach_eq hIndex hPosition]
    rfl

end

/-! ### What is seen of an element that was taken out -/

/-- A page that has taken out an element, other than the outermost one, answers every question that is not
affected as the page whose document lacks the element. The two list the same elements, and they find the
same ones by their `id`, unless the first page finds one that it has taken out. Of the elements above, the
text still has in it the text of what was taken out. -/
theorem detach_answers_as_pruned (p : Page) (e : Handle) (index : Nat) (r : Html.Position)
    (hIndex : p.currentIndex e = some index) (hInner : 0 < index)
    (hPosition : p.document.positions[index]? = some r) :
    let after := p.detach e
    let pruned := p.pruned index r.count
    let ρ := closing index r.count
    (∀ q : Question, p.Unaffected index r q → Echoes ρ after pruned q) ∧
    pruned.handles = after.handles.map ρ ∧
    (∀ id, (∃ j, after.byId id = some (p.handle j) ∧ ¬ Outside index r.count j) ∨
      pruned.byId id = (after.byId id).map ρ) ∧
    ∀ (j : Nat) (above : Html.Position), p.document.positions[j]? = some above →
      above ∈ r.ancestors → ∃ (left : Html.Position) (front back : List Char),
        pruned.document.positions[j]? = some left ∧
        above.fullText = front ++ r.fullText ++ back ∧ left.fullText = front ++ back := by
  intro after pruned ρ
  refine ⟨fun q hq => (mirrors_pruned hIndex hInner hPosition hq).echoes,
    handles_pruned hIndex hInner hPosition, byId_pruned hIndex hInner hPosition,
    fun j above hFound hAbove => ?_⟩
  have hSplits := Html.Document.splits_without hInner hPosition
  have hBefore := ((p.document.inOrder_positions.beneath j index above r hFound hPosition).mp hAbove).1
  rcases hSplits.getElem?_closeGap (.inl hBefore) with ⟨hNone, _⟩ | ⟨above', left, hFound', hLeft, hRemains⟩
  · rw [hFound] at hNone
    cases hNone
  · obtain rfl := Option.some.inj (hFound.symm.trans hFound')
    rw [closeGap, if_pos hBefore] at hLeft
    rcases hRemains.fullText_cases with ⟨hNot, _⟩ | ⟨_, front, back, hWhole, hCut⟩
    · exact absurd hAbove hNot
    · exact ⟨left, front, back, hLeft, hWhole, hCut⟩

/-- When the first of two items is taken out, a selector for items beneath a list finds what it finds on the
page without the item. -/
theorem detach_answers_as_pruned_twoItems :
    let after := twoItems.detach (twoItems.handle 4)
    let pruned := twoItems.pruned 4 1
    twoItems.currentIndex (twoItems.handle 4) = some 4 ∧
      Echoes (closing 4 1) after pruned (.elements "ul > li") ∧
      pruned.handles = after.handles.map (closing 4 1) := by
  intro after pruned
  obtain ⟨item, hItem⟩ := exists_position_twoItems 4 (by decide)
  have hCurrent : twoItems.currentIndex (twoItems.handle 4) = some 4 := by decide +kernel
  have hCount : item.count = 1 := by
    have hCounted : twoItems.document.positions[4]?.map (·.count) = some 1 := by decide +kernel
    rw [hItem] at hCounted
    exact Option.some.inj hCounted
  have hUpward : ((Css.Selector.parse? "ul > li").all fun s => s.looksUpward) = true := by
    decide +kernel
  have hUnaffected : twoItems.Unaffected 4 item (.elements "ul > li") := by
    refine ⟨nofun, nofun, fun scope s hScope hParse => ?_, nofun⟩
    obtain rfl := Option.some.inj hScope
    rw [hParse] at hUpward
    exact hUpward
  obtain ⟨hAnswers, hHandles, _⟩ :=
    detach_answers_as_pruned twoItems (twoItems.handle 4) 4 item hCurrent (by decide) hItem
  rw [hCount] at hAnswers hHandles
  exact ⟨hCurrent, hAnswers _ hUnaffected, hHandles⟩

/-- The list still has the text of the item, and the other item is still not the first child. -/
theorem detached_item_is_still_seen :
    let list := twoItems.handle 3
    let after := twoItems.detach (twoItems.handle 4)
    let pruned := twoItems.pruned 4 1
    after.answer (.text list) = .ok "onetwo" ∧
      pruned.answer (.text (closing 4 1 list)) = .ok "two" ∧
      after.answer (.elements "li:first-child") = .ok [] ∧
      pruned.answer (.elements "li:first-child") = .ok [closing 4 1 (twoItems.handle 5)] := by
  decide +kernel

end Page

end PageLogic
