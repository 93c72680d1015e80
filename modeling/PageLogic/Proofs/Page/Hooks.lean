import PageLogic.Proofs.Page.Renewal
/-!
How far the hooks of a page reach. A box, a fault or a removal is noted down for the place that a handle
names, whether or not an element is attached there. Only what is noted down for attached elements is ever
seen, and an element that was taken out never comes back in its generation. Hence a hook on a handle that the
page refuses is never noticed, and a box or a fault only by those who ask about the element that has it.
-/
namespace PageLogic

/-- The element whose box a question asks for. -/
def Question.box? : Question → Option Handle
  | .size e | .location e => some e
  | _ => none

namespace Page

variable {p p' : Page} {e : Handle} {boxed failing : Nat × Nat → Prop} {wanted : Html.Position → Bool}
  {index : Nat}

/-! ### Pages that differ in what is noted down -/

/-- An attached element stands at that place. -/
def IsAttached (p : Page) (index : Nat) : Prop :=
  index < p.document.positions.length ∧ index ∉ p.detached

theorem Names.isAttached {position : Html.Position} (h : p.Names e index position) : p.IsAttached index :=
  ⟨(List.getElem?_eq_some_iff.mp h.found).1, h.attached⟩

theorem IsAttached.exists_names (h : p.IsAttached index)
    (hRead : parseHandle e = some (p.generation, index)) : ∃ position, p.Names e index position :=
  ⟨_, hRead, h.2, List.getElem?_eq_getElem h.1⟩

/-- A handle that names no attached element is refused, for a reason that its text decides. -/
theorem inspect_of_not_names (h : ∀ index position, ¬ p.Names e index position) :
    p.inspect e = .error (if (parseHandle e).isSome then Refusal.stale e else .unissued e).fault := by
  cases hRead : parseHandle e with
  | none => exact inspect_of_unread hRead
  | some place =>
      obtain ⟨generation, index⟩ := place
      refine inspect_of_gone hRead ?_
      by_contra hHere
      simp only [ne_eq, not_or, not_not] at hHere
      obtain ⟨rfl, hAttached, hFound⟩ := hHere
      obtain ⟨position, hPosition⟩ := Option.ne_none_iff_exists'.mp hFound
      exact h index position ⟨hRead, hAttached, hPosition⟩

/-- Of attached elements the two pages have noted down the same, except for boxes of the places in `boxed`
and faults of those in `failing`. A place is a generation and a place in document order. -/
structure AgreeBut (boxed failing : Nat × Nat → Prop) (p p' : Page) : Prop where
  document : p'.document = p.document
  url : p'.url = p.url
  generation : p'.generation = p.generation
  pageFault : p'.pageFault = p.pageFault
  calls : p'.calls = p.calls
  attached : ∀ i, p'.IsAttached i ↔ p.IsAttached i
  box : ∀ i, p.IsAttached i → ¬ boxed (p.generation, i) → p'.boxes.lookup i = p.boxes.lookup i
  fault : ∀ i, p.IsAttached i → ¬ failing (p.generation, i) → p'.faults.lookup i = p.faults.lookup i

theorem AgreeBut.refl (p : Page) : AgreeBut boxed failing p p :=
  ⟨rfl, rfl, rfl, rfl, rfl, fun _ => .rfl, fun _ _ _ => rfl, fun _ _ _ => rfl⟩

namespace AgreeBut

/-- Exceptions that concern no attached element are none. -/
theorem of_not_attached (h : AgreeBut boxed failing p p')
    (hBoxed : ∀ i, p.IsAttached i → ¬ boxed (p.generation, i))
    (hFailing : ∀ i, p.IsAttached i → ¬ failing (p.generation, i)) :
    AgreeBut (fun _ => False) (fun _ => False) p p' :=
  { h with
    box := fun i hi _ => h.box i hi (hBoxed i hi)
    fault := fun i hi _ => h.fault i hi (hFailing i hi) }

theorem currentIndex_eq (h : AgreeBut boxed failing p p') (e : Handle) :
    p'.currentIndex e = p.currentIndex e := by
  simp only [currentIndex, h.generation]

theorem positions_eq (h : AgreeBut boxed failing p p') : p'.positions = p.positions :=
  congrArg (fun document : Html.Document => document.positions.toArray) h.document

theorem place (h : AgreeBut boxed failing p p') (e : Handle) (box : Box) :
    AgreeBut boxed failing (p.place e box) (p'.place e box) := by
  unfold Page.place
  rw [h.currentIndex_eq]
  split
  · refine { h with box := fun i hi hBoxed => ?_ }
    simp only [List.lookup_cons, h.box i hi hBoxed]
  · exact h

theorem failElement (h : AgreeBut boxed failing p p') (e : Handle) (kind : FaultKind) :
    AgreeBut boxed failing (p.failElement e kind) (p'.failElement e kind) := by
  unfold Page.failElement
  rw [h.currentIndex_eq]
  split
  · refine { h with fault := fun i hi hFailing => ?_ }
    simp only [List.lookup_cons, h.fault i hi hFailing]
  · exact h

/-- What is attached after more was taken out was attached before. -/
theorem isAttached_append {removed : List Nat} :
    { p with detached := removed ++ p.detached }.IsAttached index ↔ p.IsAttached index ∧ index ∉ removed := by
  simp only [IsAttached, List.mem_append, not_or]
  tauto

theorem detach (h : AgreeBut boxed failing p p') (e : Handle) :
    AgreeBut boxed failing (p.detach e) (p'.detach e) := by
  unfold Page.detach
  rw [h.currentIndex_eq]
  split
  · rw [h.positions_eq]
    split
    · refine { h with attached := fun i => ?_, box := fun i hi => ?_, fault := fun i hi => ?_ }
      · rw [isAttached_append, isAttached_append, h.attached]
      · exact h.box i (isAttached_append.mp hi).1
      · exact h.fault i (isAttached_append.mp hi).1
    · exact h
  · exact h

theorem navigate (h : AgreeBut boxed failing p p') (url source : String) :
    AgreeBut boxed failing (p.navigate url source) (p'.navigate url source) :=
  ⟨rfl, rfl, congrArg (· + 1) h.generation, h.pageFault, h.calls, fun _ => .rfl, fun _ _ _ => rfl,
    fun _ _ _ => rfl⟩

/-- Every operation leaves the pages in agreement. -/
theorem perform (h : AgreeBut boxed failing p p') (op : Operation) :
    AgreeBut boxed failing (p.perform op) (p'.perform op) := by
  cases op with
  | ask q => exact { h with calls := congrArg (· + 1) h.calls }
  | change c =>
      cases c with
      | place e box => exact h.place e box
      | failElement e kind => exact h.failElement e kind
      | failPage kind => exact { h with pageFault := rfl }
      | detach e => exact h.detach e
      | navigate url source => exact h.navigate url source

theorem performAll (h : AgreeBut boxed failing p p') (ops : List Operation) :
    AgreeBut boxed failing (p.performAll ops) (p'.performAll ops) := by
  induction ops generalizing p p' with
  | nil => exact h
  | cons op rest ih => exact ih (h.perform op)

/-! ### What pages that agree answer -/

theorem handle_eq (h : AgreeBut boxed failing p p') : p'.handle = p.handle := by
  funext index
  simp only [Page.handle, h.generation]

theorem attached_eq (h : AgreeBut boxed failing p p') : p'.attached wanted = p.attached wanted := by
  rw [Page.attached_eq, Page.attached_eq, h.document]
  refine congrArg (List.map Prod.swap) (List.filter_congr fun a ha => ?_)
  have hBound : a.2 < p.document.positions.length := by
    simpa using (List.mem_zipIdx ha).2.1
  have hDetached : a.2 ∈ p'.detached ↔ a.2 ∈ p.detached := by
    have hAttached := h.attached a.2
    simp only [IsAttached, h.document, hBound, true_and] at hAttached
    exact not_iff_not.mp hAttached
  rw [Bool.eq_iff_iff]
  simp [hDetached]

theorem matching_eq (h : AgreeBut boxed failing p p') : p'.matching = p.matching := by
  funext s
  simp only [matching, h.attached_eq, h.handle_eq]

theorem matchingBelow_eq (h : AgreeBut boxed failing p p') : p'.matchingBelow = p.matchingBelow := by
  funext index parent s
  simp only [matchingBelow, h.attached_eq, h.handle_eq]

theorem names_iff (h : AgreeBut boxed failing p p') {position : Html.Position} :
    p'.Names e index position ↔ p.Names e index position := by
  constructor
  · intro hNames
    have hAttached := (h.attached index).mp hNames.isAttached
    exact ⟨h.generation ▸ hNames.read, hAttached.2, h.document ▸ hNames.found⟩
  · intro hNames
    have hAttached := (h.attached index).mpr hNames.isAttached
    exact ⟨h.generation ▸ hNames.read, hAttached.2, h.document ▸ hNames.found⟩

/-- A handle is found alike unless it names a place where the faults may differ. -/
theorem inspect_eq (h : AgreeBut boxed failing p p')
    (hFailing : ∀ place, parseHandle e = some place → ¬ failing place) : p'.inspect e = p.inspect e := by
  by_cases hNamed : ∃ index position, p.Names e index position
  · obtain ⟨index, position, hNames⟩ := hNamed
    have hNames' := h.names_iff.mpr hNames
    have hFault := h.fault index hNames.isAttached (hFailing _ hNames.read)
    cases hKind : p.faults.lookup index with
    | none => rw [hNames.inspect_eq_ok hKind, hNames'.inspect_eq_ok (hFault.trans hKind)]
    | some kind => rw [hNames.inspect_eq_failing hKind, hNames'.inspect_eq_failing (hFault.trans hKind)]
  · have hNone : ∀ index position, ¬ p.Names e index position := by simpa using hNamed
    rw [inspect_of_not_names hNone, inspect_of_not_names fun index position => mt h.names_iff.mp (hNone _ _)]

/-- Where the boxes agree, too, what is said of a box is the same. -/
theorem aboutBox_eq (h : AgreeBut boxed failing p p') {α : Type} (f : Option Box → α)
    (hFailing : ∀ place, parseHandle e = some place → ¬ failing place)
    (hBoxed : ∀ place, parseHandle e = some place → ¬ boxed place) :
    p'.aboutElement e (fun index _ => f (p'.boxes.lookup index)) =
      p.aboutElement e fun index _ => f (p.boxes.lookup index) := by
  unfold aboutElement
  rw [h.inspect_eq hFailing]
  cases hFound : p.inspect e with
  | error f => rfl
  | ok found =>
      obtain ⟨hRead, hAttached, hPosition⟩ := inspect_eq_ok hFound
      have hBox := h.box found.1 ⟨(List.getElem?_eq_some_iff.mp hPosition).1, hAttached⟩ (hBoxed _ hRead)
      simp only [Except.map, hBox]

/-- Pages that agree answer a question alike unless it is about the fault or the box of an element for which
they may differ. -/
theorem answer_eq (h : AgreeBut boxed failing p p') (q : Question)
    (hFailing : ∀ e, q.subject? = some e → ∀ place, parseHandle e = some place → ¬ failing place)
    (hBoxed : ∀ e, q.box? = some e → ∀ place, parseHandle e = some place → ¬ boxed place) :
    p'.answer q = p.answer q := by
  cases q with
  | elements scope => simp only [answer, h.matching_eq]
  | descendants parent scope => simp only [answer, h.inspect_eq (hFailing parent rfl), h.matchingBelow_eq]
  | size e => exact h.aboutBox_eq (·.elim ⟨0, 0⟩ (·.size)) (hFailing e rfl) (hBoxed e rfl)
  | location e => exact h.aboutBox_eq (·.elim ⟨0, 0⟩ (·.location)) (hFailing e rfl) (hBoxed e rfl)
  | title => simp only [answer, aboutPage, h.pageFault, h.document]
  | currentUrl => simp only [answer, aboutPage, h.pageFault, h.url]
  | «attribute» e | tagName e | text e | displayed e | enabled e | «exists» e | selected e | visible e =>
      simp only [answer, aboutElement, h.inspect_eq (hFailing e rfl)]

end AgreeBut

/-- The pages are the same to whoever looks at them without a question. -/
structure LooksLike (p p' : Page) : Prop where
  handles : p'.handles = p.handles
  byId : p'.byId = p.byId
  summary : p'.summary = p.summary
  calls : p'.calls = p.calls

theorem AgreeBut.looksLike (h : AgreeBut boxed failing p p') : p.LooksLike p' where
  handles := by simp only [Page.handles, h.attached_eq, h.handle_eq]
  byId := by
    funext id
    simp only [Page.byId, h.document, h.handle_eq]
  summary := by
    unfold Page.summary
    rw [h.url, h.generation, h.calls]
  calls := h.calls

/-! ### Hooks -/

theorem lookup_cons_of_ne {α : Type} {i j : Nat} (h : i ≠ j) (a : α) (pairs : List (Nat × α)) :
    ((j, a) :: pairs).lookup i = pairs.lookup i := by
  rw [List.lookup_cons, beq_false_of_ne h]

/-- A box is noted down for the place that the handle names. -/
theorem agreeBut_place (p : Page) (e : Handle) (box : Box) :
    AgreeBut (parseHandle e = some ·) (fun _ => False) p (p.place e box) := by
  unfold place
  split
  · next index hIndex =>
      have hSame : AgreeBut (parseHandle e = some ·) (fun _ => False) p p := .refl p
      refine { hSame with box := fun i _ hOther => lookup_cons_of_ne ?_ _ _ }
      rintro rfl
      exact hOther (parseHandle_of_currentIndex hIndex)
  · exact .refl p

/-- So is a fault. -/
theorem agreeBut_failElement (p : Page) (e : Handle) (kind : FaultKind) :
    AgreeBut (fun _ => False) (parseHandle e = some ·) p (p.failElement e kind) := by
  unfold failElement
  split
  · next index hIndex =>
      have hSame : AgreeBut (fun _ => False) (parseHandle e = some ·) p p := .refl p
      refine { hSame with fault := fun i _ hOther => lookup_cons_of_ne ?_ _ _ }
      rintro rfl
      exact hOther (parseHandle_of_currentIndex hIndex)
  · exact .refl p

theorem Names.currentIndex_eq {position : Html.Position} (h : p.Names e index position) :
    p.currentIndex e = some index := by
  rw [currentIndex, h.read]
  exact if_pos rfl

/-- A handle that the page answers for names an attached element that carries no fault. -/
theorem exists_names_of_answer_exists (h : p.answer (.exists e) = .ok true) :
    ∃ index position, p.Names e index position ∧ p.faults.lookup index = none := by
  simp only [answer, aboutElement] at h
  cases hFound : p.inspect e with
  | error f => simp [hFound, Except.map] at h
  | ok found =>
      obtain ⟨hRead, hAttached, hPosition⟩ := inspect_eq_ok hFound
      exact ⟨found.1, found.2, ⟨hRead, hAttached, hPosition⟩, lookup_of_inspect hFound⟩

/-- Whoever asks about the element that the handle names sees the box. -/
theorem Names.answer_place {position : Html.Position} (h : p.Names e index position)
    (hFault : p.faults.lookup index = none) (box : Box) :
    (p.place e box).answer (.size e) = .ok box.size ∧
      (p.place e box).answer (.location e) = .ok box.location := by
  have hPlaced : p.place e box = { p with boxes := (index, box) :: p.boxes } := by
    rw [Page.place, h.currentIndex_eq]
  have hNames : (p.place e box).Names e index position := hPlaced ▸ ⟨h.read, h.attached, h.found⟩
  have hFound := hNames.inspect_eq_ok (hPlaced ▸ hFault)
  have hBox : (p.place e box).boxes.lookup index = some box := by
    rw [hPlaced]
    exact List.lookup_cons_self
  simp only [answer, aboutElement, hFound, Except.map, hBox, Option.elim_some, and_self]

/-- And whoever does so after a fault is refused. -/
theorem Names.answer_failElement {position : Html.Position} (h : p.Names e index position)
    (kind : FaultKind) {q : Question} (hq : q.subject? = some e) :
    (p.failElement e kind).answer q = .error (Refusal.failing e kind).fault := by
  have hFailed : p.failElement e kind = { p with faults := (index, kind) :: p.faults } := by
    rw [Page.failElement, h.currentIndex_eq]
  have hNames : (p.failElement e kind).Names e index position := hFailed ▸ ⟨h.read, h.attached, h.found⟩
  have hKind : (p.failElement e kind).faults.lookup index = some kind := by
    rw [hFailed]
    exact List.lookup_cons_self
  have hInspect := hNames.inspect_eq_failing hKind
  cases q with
  | elements | title | currentUrl => cases hq
  | _ =>
      obtain rfl := Option.some.inj hq
      simp only [answer, aboutElement, hInspect, Except.map]

/-- Removing what is not there changes nothing, where all that lies beneath what was taken out is gone. -/
theorem agreeBut_detach (hClosed : p.DetachedBelow) (hRefused : ¬ p.Accepts e) :
    AgreeBut boxed failing p (p.detach e) := by
  cases hIndex : p.currentIndex e with
  | none =>
      rw [detach, hIndex]
      exact .refl p
  | some index =>
      cases hPosition : p.document.positions[index]? with
      | none =>
          have hSame : p.detach e = p := by simp [detach, hIndex, positions, hPosition]
          rw [hSame]
          exact .refl p
      | some position =>
          have hGone : index ∈ p.detached := by
            by_contra hAttached
            exact hRefused (accepts_iff.mpr
              ⟨index, position, parseHandle_of_currentIndex hIndex, hAttached, hPosition⟩)
          rw [detach_eq hIndex hPosition]
          refine { AgreeBut.refl p with attached := fun i => ?_ }
          rw [AgreeBut.isAttached_append, and_iff_left_of_imp]
          -- What would be taken out is the element itself and what lies beneath it.
          intro hAttached hTaken
          have hInner := List.getElem?_eq_getElem hAttached.1
          rw [List.mem_range'_1] at hTaken
          rcases Nat.eq_or_lt_of_le hTaken.1 with rfl | hLt
          · exact hAttached.2 hGone
          · exact hAttached.2 (hClosed index i
              ((below_handle_iff_between hPosition hInner).mpr ⟨hLt, hTaken.2⟩) hGone)

/-- A handle behind the last element is refused. -/
theorem not_accepts_of_length_le (h : p.document.positions.length ≤ index) :
    ¬ p.Accepts (p.handle index) := by
  rw [accepts_iff]
  rintro ⟨place, position, hNames⟩
  obtain ⟨-, rfl⟩ := eq_of_parseHandle_handleOf hNames.read
  exact absurd hNames.isAttached.1 (Nat.not_lt_of_le h)

/-- A hook on a handle that the page refuses is as good as none. -/
theorem agreeBut_of_refused (hClosed : p.DetachedBelow) (hRefused : ¬ p.Accepts e) {c : Change}
    (hSubject : c.subject? = some e) : AgreeBut (fun _ => False) (fun _ => False) p (p.change c) := by
  -- Boxes and faults may be noted down for the place that the handle names, but no element is attached there.
  have hNowhere (i : Nat) (hAttached : p.IsAttached i) : ¬ parseHandle e = some (p.generation, i) := by
    intro hRead
    obtain ⟨position, hNames⟩ := hAttached.exists_names hRead
    exact hRefused hNames.accepts
  cases c with
  | place a box =>
      obtain rfl := Option.some.inj hSubject
      exact (p.agreeBut_place a box).of_not_attached hNowhere fun _ _ => id
  | failElement a kind =>
      obtain rfl := Option.some.inj hSubject
      exact (p.agreeBut_failElement a kind).of_not_attached (fun _ _ => id) hNowhere
  | detach a =>
      obtain rfl := Option.some.inj hSubject
      exact agreeBut_detach hClosed hRefused
  | failPage | navigate => cases hSubject

/-- Hooks touch their target and nothing else, in every state that a page comes to and whatever happens
thereafter. On a handle that the page refuses they do nothing at all. A box becomes the size and the location
of the element that the handle names, and changes no other answers. With a fault every question about this
element is answered, and no other. Neither shows in what is listed. -/
theorem hooks_touch_their_target (url source : String) (front behind : List Operation) (e : Handle) :
    let p := (load url source).performAll front
    let later := p.performAll behind
    (¬ p.Accepts e → ∀ c : Change, c.subject? = some e →
      let touched := (p.change c).performAll behind
      later.LooksLike touched ∧ ∀ q, touched.answer q = later.answer q) ∧
    (∀ box : Box,
      let touched := (p.place e box).performAll behind
      (p.answer (.exists e) = .ok true → (p.place e box).answer (.size e) = .ok box.size ∧
        (p.place e box).answer (.location e) = .ok box.location) ∧
      later.LooksLike touched ∧ ∀ q : Question,
        (∀ a, q.box? = some a → parseHandle a ≠ parseHandle e) → touched.answer q = later.answer q) ∧
    ∀ kind : FaultKind,
      let touched := (p.failElement e kind).performAll behind
      (p.Accepts e → ∀ q : Question, q.subject? = some e →
        (p.failElement e kind).answer q = .error (Refusal.failing e kind).fault) ∧
      later.LooksLike touched ∧ ∀ q : Question,
        (∀ a, q.subject? = some a → parseHandle a ≠ parseHandle e) → touched.answer q = later.answer q := by
  intro p later
  have hOther {a : Handle} (hApart : parseHandle a ≠ parseHandle e) (place : Nat × Nat)
      (hRead : parseHandle a = some place) : ¬ parseHandle e = some place :=
    fun hSame => hApart (hRead.trans hSame.symm)
  refine ⟨fun hRefused c hSubject => ?_, fun box => ⟨fun hExists => ?_, ?_⟩,
    fun kind => ⟨fun hAccepts q hq => ?_, ?_⟩⟩
  · have hClosed : p.DetachedBelow :=
      performAll_induction (fun _ _ _ hi => nomatch hi) (fun _ op h => h.perform op) front
    have hAgree := (agreeBut_of_refused hClosed hRefused hSubject).performAll behind
    exact ⟨hAgree.looksLike, fun q => hAgree.answer_eq q (fun _ _ _ _ => id) fun _ _ _ _ => id⟩
  · obtain ⟨index, position, hNames, hFault⟩ := exists_names_of_answer_exists hExists
    exact hNames.answer_place hFault box
  · have hAgree := (p.agreeBut_place e box).performAll behind
    exact ⟨hAgree.looksLike, fun q hApart =>
      hAgree.answer_eq q (fun _ _ _ _ => id) fun a ha => hOther (hApart a ha)⟩
  · obtain ⟨index, position, hNames⟩ := accepts_iff.mp hAccepts
    exact hNames.answer_failElement kind hq
  · have hAgree := (p.agreeBut_failElement e kind).performAll behind
    exact ⟨hAgree.looksLike, fun q hApart =>
      hAgree.answer_eq q (fun a ha => hOther (hApart a ha)) fun _ _ _ _ => id⟩

/-- A box on an item shows in its size and not in its text, a fault on the item shows in its text and does not
keep it from being found beneath the list, and what is noted down behind the last element is not seen. -/
theorem hooks_touch_their_target_twoItems :
    let item := twoItems.handle 5
    let beyond := twoItems.handle 6
    let box : Box := ⟨⟨10, 20⟩, ⟨30, 40⟩⟩
    (¬ twoItems.Accepts beyond ∧ ∀ q, (twoItems.place beyond box).answer q = twoItems.answer q) ∧
      ((twoItems.place item box).answer (.size item) = .ok ⟨30, 40⟩ ∧
        (twoItems.place item box).answer (.text item) = twoItems.answer (.text item)) ∧
      (twoItems.failElement item .unexpected).answer (.text item) =
          .error (Refusal.failing item .unexpected).fault ∧
        (twoItems.failElement item .unexpected).answer (.descendants (twoItems.handle 3) "li") =
          twoItems.answer (.descendants (twoItems.handle 3) "li") := by
  intro item beyond box
  obtain ⟨position, hPosition⟩ := exists_position_twoItems 5 (by decide)
  have hNames : twoItems.Names item 5 position := ⟨by decide +kernel, List.not_mem_nil, hPosition⟩
  have hRefused : ¬ twoItems.Accepts beyond := not_accepts_of_length_le length_twoItems.le
  have hApart : parseHandle (twoItems.handle 3) ≠ parseHandle item := by decide +kernel
  have hTouch (e : Handle) :=
    hooks_touch_their_target "https://example.org/" "<ul><li>one<li>two</ul>" [] [] e
  have hExists : twoItems.answer (.exists item) = .ok true := by
    simp only [answer, aboutElement, hNames.inspect_eq_ok rfl, Except.map]
  have hPlaced := (hTouch item).2.1 box
  have hFailed := (hTouch item).2.2 .unexpected
  exact ⟨⟨hRefused, ((hTouch beyond).1 hRefused (.place beyond box) rfl).2⟩,
    ⟨(hPlaced.1 hExists).1, hPlaced.2.2 (.text item) fun _ h => (Option.some_ne_none _ h.symm).elim⟩,
    hFailed.1 hNames.accepts (.text item) rfl,
    hFailed.2.2 _ fun a ha => Option.some.inj ha ▸ hApart⟩

end Page

end PageLogic
