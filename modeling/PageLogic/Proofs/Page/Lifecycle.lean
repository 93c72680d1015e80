import PageLogic.Proofs.Page.Descent
/-!
The life of handles. A page starts with a document, and then is changed and asked in any order. An
element is taken out with everything beneath it, so that attached elements have attached ancestors. A
handle goes stale when its element is taken out or another document is loaded; from then on it is
refused, and never given out again.
-/
namespace PageLogic

/-- The element that a question is about. -/
def Question.subject? : Question → Option Handle
  | .elements _ | .title | .currentUrl => none
  | .descendants e _ | .attribute e _ | .tagName e | .text e | .size e | .location e | .displayed e
  | .enabled e | .exists e | .selected e | .visible e => some e

namespace Page

variable {p : Page} {e child parent : Handle}

/-! ### Operations -/

/-- What happens to a page: it is changed, or it is asked. -/
inductive Operation where
  | change (c : Change)
  | ask (q : Question)

def perform (p : Page) : Operation → Page
  | .change c => p.change c
  | .ask q => (oracle.answer q p).2

/-- The page after some operations. -/
def performAll (p : Page) (ops : List Operation) : Page :=
  ops.foldl perform p

/-- What holds at first and is kept by every operation holds after any of them. -/
theorem performAll_induction {P : Page → Prop} (h : P p)
    (hStep : ∀ p op, P p → P (p.perform op)) (ops : List Operation) : P (p.performAll ops) := by
  induction ops generalizing p with
  | nil => exact h
  | cons op rest ih => exact ih (hStep p op h)

/-- An element that a handle names is taken out with everything beneath it. -/
theorem detach_eq {a : Handle} {index : Nat} {position : Html.Position}
    (hIndex : p.currentIndex a = some index)
    (hPosition : p.document.positions[index]? = some position) :
    p.detach a = { p with detached := List.range' index position.count ++ p.detached } := by
  simp [detach, hIndex, positions, hPosition]

/-- An operation leaves the elements and what is attached as they are, or takes out an element that a
handle names, with everything beneath it, or loads another document. -/
theorem perform_cases (p : Page) (op : Operation) :
    ((p.perform op).document = p.document ∧ (p.perform op).generation = p.generation ∧
      (p.perform op).detached = p.detached) ∨
    (∃ a index position, op = .change (.detach a) ∧ p.currentIndex a = some index ∧
      p.document.positions[index]? = some position ∧
      p.perform op = { p with detached := List.range' index position.count ++ p.detached }) ∨
    ∃ url source, op = .change (.navigate url source) ∧ p.perform op = p.navigate url source := by
  cases op with
  | ask q => exact .inl ⟨rfl, rfl, rfl⟩
  | change c =>
      cases c with
      | place e box =>
          have hPlace : (p.place e box).document = p.document ∧
              (p.place e box).generation = p.generation ∧
              (p.place e box).detached = p.detached := by
            unfold place
            split <;> exact ⟨rfl, rfl, rfl⟩
          exact .inl hPlace
      | failElement e kind =>
          have hFail : (p.failElement e kind).document = p.document ∧
              (p.failElement e kind).generation = p.generation ∧
              (p.failElement e kind).detached = p.detached := by
            unfold failElement
            split <;> exact ⟨rfl, rfl, rfl⟩
          exact .inl hFail
      | failPage kind => exact .inl ⟨rfl, rfl, rfl⟩
      | navigate url source => exact .inr (.inr ⟨url, source, rfl, rfl⟩)
      | detach a =>
          have hSame (h : p.detach a = p) : (p.detach a).document = p.document ∧
              (p.detach a).generation = p.generation ∧ (p.detach a).detached = p.detached := by
            rw [h]
            exact ⟨rfl, rfl, rfl⟩
          cases hIndex : p.currentIndex a with
          | none => exact .inl (hSame (by simp [detach, hIndex]))
          | some index =>
              cases hPosition : p.document.positions[index]? with
              | none => exact .inl (hSame (by simp [detach, hIndex, positions, hPosition]))
              | some position =>
                  exact .inr (.inl
                    ⟨a, index, position, rfl, hIndex, hPosition, detach_eq hIndex hPosition⟩)

/-! ### Attached elements have attached ancestors -/

/-- What lies beneath a detached element is detached. -/
def DetachedBelow (p : Page) : Prop :=
  ∀ i j, p.Below (p.handle j) (p.handle i) → i ∈ p.detached → j ∈ p.detached

/-- Handles of one generation, of one document, are related alike. -/
theorem below_congr {p p' : Page} (hDocument : p'.document = p.document) {i j : Nat} :
    p'.Below (p'.handle j) (p'.handle i) ↔ p.Below (p.handle j) (p.handle i) := by
  rw [below_handle_iff, below_handle_iff, hDocument]

theorem DetachedBelow.perform (h : p.DetachedBelow) (op : Operation) :
    (p.perform op).DetachedBelow := by
  rcases p.perform_cases op with
    ⟨hDocument, _, hDetached⟩ | ⟨a, index, position, _, _, hPosition, hEq⟩ | ⟨url, source, _, hEq⟩
  · intro i j hBelow hi
    rw [below_congr hDocument] at hBelow
    rw [hDetached] at hi ⊢
    exact h i j hBelow hi
  · intro i j hBelow hi
    rw [hEq] at hBelow hi ⊢
    have hBelow : p.Below (p.handle j) (p.handle i) := (below_congr rfl).mp hBelow
    rcases List.mem_append.mp hi with hTaken | hOld
    · -- The ancestor is among the elements taken out, and with it what lies beneath it.
      refine List.mem_append_left _ ?_
      obtain ⟨outer, inner, hOuter, hInner, _⟩ := below_handle_iff.mp hBelow
      have hBetween := (below_handle_iff_between hPosition hInner).mp ?_
      · rw [List.mem_range'_1]
        exact ⟨hBetween.1.le, hBetween.2⟩
      · rw [List.mem_range'_1] at hTaken
        rcases Nat.eq_or_lt_of_le hTaken.1 with rfl | hLt
        · exact hBelow
        · exact hBelow.trans ((below_handle_iff_between hPosition hOuter).mpr ⟨hLt, hTaken.2⟩)
    · exact List.mem_append_right _ (h i j hBelow hOld)
  · intro i j _ hi
    rw [hEq] at hi
    cases hi

/-- Where what lies beneath a detached element is detached, an attached element has attached
ancestors. -/
theorem DetachedBelow.mem_handles (h : p.DetachedBelow) (hBelow : p.Below child parent)
    (hChild : child ∈ p.handles) : parent ∈ p.handles := by
  obtain ⟨i, j, rfl, rfl, outer, inner, hOuter, hInner, hAbove⟩ := hBelow
  refine Page.mem_handles.mpr ⟨⟨outer, hOuter⟩, fun hi => ?_⟩
  refine (Page.mem_handles.mp hChild).2 (h i j ?_ hi)
  exact below_handle_iff.mpr ⟨outer, inner, hOuter, hInner, hAbove⟩

/-! ### Handles that were given out -/

/-- The page gives out the handle when its elements are listed, or in an enumeration. -/
def Returns (p : Page) (e : Handle) : Prop :=
  e ∈ p.handles ∨ (∃ scope es, p.answer (.elements scope) = .ok es ∧ e ∈ es) ∨
    ∃ parent scope es, p.answer (.descendants parent scope) = .ok es ∧ e ∈ es

/-- Only attached elements are given out. -/
theorem Returns.exists_index (h : p.Returns e) :
    ∃ index, e = p.handle index ∧ index < p.document.positions.length ∧ index ∉ p.detached := by
  have hAttached {wanted : Html.Position → Bool} {a : Nat × Html.Position}
      (ha : a ∈ p.attached wanted) :
      ∃ index, p.handle a.1 = p.handle index ∧ index < p.document.positions.length ∧
        index ∉ p.detached := by
    obtain ⟨hPosition, _, hDetached⟩ := mem_attached.mp ha
    exact ⟨a.1, rfl, (List.getElem?_eq_some_iff.mp hPosition).1, hDetached⟩
  rcases h with hHandle | ⟨scope, es, hAnswer, he⟩ | ⟨parent, scope, es, hAnswer, he⟩
  · obtain ⟨a, ha, rfl⟩ := List.mem_map.mp hHandle
    exact hAttached ha
  · obtain ⟨s, rfl⟩ := answer_elements_eq_ok hAnswer
    obtain ⟨a, ha, rfl⟩ := List.mem_map.mp he
    exact hAttached (List.mem_mergeSort.mp ha)
  · obtain ⟨found, s, _, rfl⟩ := answer_descendants_eq_ok hAnswer
    obtain ⟨a, ha, rfl⟩ := List.mem_map.mp he
    exact hAttached (List.mem_of_mem_filter ha)

/-- The handle names an element of the document, or an element of an older one. -/
def Given (p : Page) (e : Handle) : Prop :=
  ∃ generation index, e = handleOf generation index ∧
    (generation < p.generation ∨
      generation = p.generation ∧ index < p.document.positions.length)

theorem Returns.given (h : p.Returns e) : p.Given e := by
  obtain ⟨index, rfl, hIndex, _⟩ := h.exists_index
  exact ⟨p.generation, index, rfl, .inr ⟨rfl, hIndex⟩⟩

theorem given_of_byId {id : String} (h : p.byId id = some e) : p.Given e := by
  obtain ⟨index, hFound, rfl⟩ := Option.map_eq_some_iff.mp h
  obtain ⟨hIndex, _⟩ := List.findIdx?_eq_some_iff_getElem.mp hFound
  exact ⟨p.generation, index, rfl, .inr ⟨rfl, hIndex⟩⟩

theorem Given.perform (h : p.Given e) (op : Operation) : (p.perform op).Given e := by
  obtain ⟨generation, index, rfl, hGiven⟩ := h
  refine ⟨generation, index, rfl, ?_⟩
  rcases p.perform_cases op with
    ⟨hDocument, hGeneration, _⟩ | ⟨_, _, _, _, _, _, hEq⟩ | ⟨url, source, _, hEq⟩
  · rw [hDocument, hGeneration]
    exact hGiven
  · rw [hEq]
    exact hGiven
  · rw [hEq]
    refine .inl ?_
    show generation < p.generation + 1
    omega

/-! ### Stale handles -/

/-- The handle is of an older document, or its element was taken out. -/
def Stale (p : Page) (e : Handle) : Prop :=
  ∃ generation index, e = handleOf generation index ∧
    (generation < p.generation ∨ generation = p.generation ∧ index ∈ p.detached)

/-- Stale handles stay so. -/
theorem Stale.perform (h : p.Stale e) (op : Operation) : (p.perform op).Stale e := by
  obtain ⟨generation, index, rfl, hStale⟩ := h
  refine ⟨generation, index, rfl, ?_⟩
  rcases p.perform_cases op with
    ⟨_, hGeneration, hDetached⟩ | ⟨_, _, _, _, _, _, hEq⟩ | ⟨url, source, _, hEq⟩
  · rw [hGeneration, hDetached]
    exact hStale
  · rw [hEq]
    exact hStale.imp_right fun h => ⟨h.1, List.mem_append_right _ h.2⟩
  · rw [hEq]
    refine .inl ?_
    show generation < p.generation + 1
    omega

/-- The operation takes out the element of a handle, through this or through the handle of an element
above it, or it loads another document. A handle that is not one of the page's own is ignored. -/
def Retires (p : Page) (e : Handle) : Operation → Prop
  | .change (.detach a) => (p.currentIndex a).isSome ∧ (a = e ∨ p.Below e a)
  | .change (.navigate _ _) => True
  | _ => False

theorem parseHandle_of_currentIndex {index : Nat} (h : p.currentIndex e = some index) :
    parseHandle e = some (p.generation, index) := by
  unfold currentIndex at h
  split at h
  · next generation index' hParse =>
      split at h
      · next hGeneration =>
          obtain rfl := Option.some.inj h
          rw [hParse, hGeneration]
      · cases h
  · cases h

theorem count_pos (position : Html.Position) : 0 < position.count := by
  simp [Html.Position.count, Html.Position.node, Html.Node.count]

/-- Such an operation makes a handle stale that was given out. -/
theorem Given.stale (h : p.Given e) {op : Operation} (hRetires : p.Retires e op) :
    (p.perform op).Stale e := by
  obtain ⟨generation, index, rfl, hGiven⟩ := h
  refine ⟨generation, index, rfl, ?_⟩
  cases op with
  | ask q => exact hRetires.elim
  | change c =>
      cases c with
      | place | failElement | failPage => exact hRetires.elim
      | navigate url source =>
          refine .inl ?_
          show generation < p.generation + 1
          omega
      | detach a =>
          obtain ⟨hCurrent, hNamed⟩ := hRetires
          obtain ⟨place, hPlace⟩ := Option.isSome_iff_exists.mp hCurrent
          have hParse := parseHandle_of_currentIndex hPlace
          have hTaken {position : Html.Position}
              (hPosition : p.document.positions[place]? = some position) (hLe : place ≤ index)
              (hLt : index < place + position.count) : index ∈ (p.detach a).detached := by
            rw [detach_eq hPlace hPosition]
            exact List.mem_append_left _ (List.mem_range'_1.mpr ⟨hLe, hLt⟩)
          rcases hNamed with rfl | hBelow
          · obtain ⟨hGeneration, rfl⟩ := eq_of_parseHandle_handleOf hParse
            have hIndex : place < p.document.positions.length := by
              rcases hGiven with hOld | ⟨_, hIndex⟩
              · exact absurd hGeneration hOld.ne'
              · exact hIndex
            refine .inr ⟨hGeneration.symm.trans (p.generation_detach _).symm, ?_⟩
            exact hTaken (List.getElem?_eq_getElem hIndex) (Nat.le_refl _)
              (Nat.lt_add_of_pos_right (count_pos _))
          · obtain ⟨i, j, rfl, hEq, outer, inner, hOuter, hInner, hAbove⟩ := hBelow
            obtain ⟨rfl, rfl⟩ := handleOf_injective₂ hEq
            obtain ⟨_, rfl⟩ := eq_of_parseHandle_handleOf hParse
            have hBetween := (p.document.inOrder_positions.beneath _ _ _ _ hOuter hInner).mp hAbove
            exact .inr ⟨(p.generation_detach _).symm, hTaken hOuter hBetween.1.le hBetween.2⟩

/-- A stale handle is refused. -/
theorem Stale.inspect (h : p.Stale e) :
    ∃ detail, p.inspect e = .error ⟨.invalidElementState, detail⟩ := by
  obtain ⟨generation, index, rfl, hStale⟩ := h
  unfold inspect
  cases hParse : parseHandle (handleOf generation index) with
  | none => exact ⟨_, rfl⟩
  | some place =>
      obtain ⟨generation', index'⟩ := place
      obtain ⟨rfl, rfl⟩ := eq_of_parseHandle_handleOf hParse
      have hGone : (generation' ≠ p.generation || p.detached.contains index') = true := by
        simp only [Bool.or_eq_true, decide_eq_true_eq, List.contains_iff_mem]
        exact hStale.imp (fun h => h.ne) fun h => h.2
      exact ⟨_, if_pos hGone⟩

theorem Stale.answer (h : p.Stale e) {q : Question} (hq : q.subject? = some e) :
    ∃ detail, p.answer q = .error ⟨.invalidElementState, detail⟩ := by
  obtain ⟨detail, hInspect⟩ := h.inspect
  refine ⟨detail, ?_⟩
  cases q with
  | elements | title | currentUrl => cases hq
  | _ =>
      obtain rfl := Option.some.inj hq
      simp [answer, aboutElement, hInspect, Except.map]

/-- And it is not given out. -/
theorem Stale.not_returns (h : p.Stale e) : ¬ p.Returns e := by
  intro hReturns
  obtain ⟨generation, index, rfl, hStale⟩ := h
  obtain ⟨index', hEq, _, hAttached⟩ := hReturns.exists_index
  obtain ⟨rfl, rfl⟩ := handleOf_injective₂ hEq
  rcases hStale with hOld | ⟨_, hDetached⟩
  · exact Nat.lt_irrefl _ hOld
  · exact hAttached hDetached

/-! ### The life of a handle -/

/-- The life of handles, over all runs of a page. Attached elements have attached ancestors in every
state. A handle that was given out, and whose element is then taken out, by itself or with an element
above it, or whose document is replaced, is refused with every question about it in all states
thereafter, and not given out again. -/
theorem handle_lifecycle (url source : String) :
    (∀ (ops : List Operation) (child parent : Handle),
      let p := (load url source).performAll ops
      p.Below child parent → child ∈ p.handles → parent ∈ p.handles) ∧
    ∀ (front middle behind : List Operation) (op : Operation) (e : Handle),
      let giver := (load url source).performAll front
      let p := giver.performAll middle
      let later := (p.perform op).performAll behind
      (giver.Returns e ∨ ∃ id, giver.byId id = some e) → p.Retires e op →
        (∀ q : Question, q.subject? = some e →
          ∃ detail, later.answer q = .error ⟨.invalidElementState, detail⟩) ∧
        ¬ later.Returns e := by
  constructor
  · intro ops child parent p
    have hClosed : p.DetachedBelow :=
      performAll_induction (fun _ _ _ hi => nomatch hi) (fun _ op h => h.perform op) ops
    exact hClosed.mem_handles
  · intro front middle behind op e giver p later hGiven hRetires
    have hGiven : giver.Given e := hGiven.elim Returns.given fun ⟨_, h⟩ => given_of_byId h
    have hGivenThen : p.Given e :=
      performAll_induction (P := (Given · e)) hGiven (fun _ op h => h.perform op) middle
    have hStale : later.Stale e :=
      performAll_induction (P := (Stale · e)) (hGivenThen.stale hRetires) (fun _ op h => h.perform op) behind
    exact ⟨fun _ hq => hStale.answer hq, hStale.not_returns⟩

/-- The handle of an item goes stale with the list, and stays so when another document is loaded in
which something stands at the same place. -/
theorem handle_lifecycle_twoItems :
    let list := twoItems.handle 3
    let item := twoItems.handle 5
    let later := (twoItems.perform (.change (.detach list))).performAll
      [.ask .title, .change (.navigate "https://example.org/" "<ul><li>one<li>two</ul>")]
    twoItems.Returns item ∧ twoItems.Retires item (.change (.detach list)) ∧
      (∃ detail, later.answer (.text item) = .error ⟨.invalidElementState, detail⟩) ∧
      ¬ later.Returns item := by
  intro list item later
  have hReturns : twoItems.Returns item :=
    .inl (mem_handles.mpr ⟨exists_position_twoItems 5 (by decide), nofun⟩)
  have hRetires : twoItems.Retires item (.change (.detach list)) :=
    ⟨by decide +kernel, .inr below_twoItems⟩
  obtain ⟨hRefused, hGone⟩ := (handle_lifecycle "https://example.org/" "<ul><li>one<li>two</ul>").2
    [] [] [.ask .title, .change (.navigate "https://example.org/" "<ul><li>one<li>two</ul>")]
    (.change (.detach list)) item (.inl hReturns) hRetires
  exact ⟨hReturns, hRetires, hRefused (.text item) rfl, hGone⟩

end Page

end PageLogic
