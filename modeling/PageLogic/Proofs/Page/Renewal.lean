import PageLogic.Proofs.Page.Renaming
/-!
What another document leaves behind: nothing. A page that loads another document goes on as one that
starts with that document, only that its generations, and with them its handles, are later ones, and that
its questions are counted on.
-/
namespace PageLogic.Page

variable {ρ : Handle → Handle} {p : Page} {e : Handle} {g calls : Nat}

/-! ### Operations under a renaming -/

/-- The element that a change is about. -/
def Change.subject? : Change → Option Handle
  | .place e _ | .failElement e _ | .detach e => some e
  | .failPage _ | .navigate _ _ => none

/-- The change to the renamed element. -/
def Change.rename (ρ : Handle → Handle) : Change → Change
  | .place e box => .place (ρ e) box
  | .failElement e kind => .failElement (ρ e) kind
  | .failPage kind => .failPage kind
  | .detach e => .detach (ρ e)
  | .navigate url source => .navigate url source

/-- The element that an operation is about. -/
def Operation.subject? : Operation → Option Handle
  | .change c => c.subject?
  | .ask q => q.subject?

def Operation.rename (ρ : Handle → Handle) : Operation → Operation
  | .change c => .change (c.rename ρ)
  | .ask q => .ask (q.rename ρ)

/-! ### Generations -/

/-- The page as it is when `g` more documents were loaded before its own. -/
def aged (p : Page) (g calls : Nat) : Page :=
  { p with generation := p.generation + g, calls }

/-- The handle of the same place `g` generations earlier. -/
def earlier (g : Nat) : Handle → Handle :=
  relabel fun generation index => (generation - g, index)

@[simp] theorem earlier_handleOf (g generation index : Nat) :
    earlier g (handleOf (generation + g) index) = handleOf generation index := by
  simp [earlier]

/-- The handle is one of generation `g` or of a later one. Generations are numbers of 64 bits. -/
def Since (g : Nat) (e : Handle) : Prop :=
  ∃ generation index, e = handleOf (generation + g) index ∧ generation + g < Word.limit

@[simp] theorem positions_aged : (p.aged g calls).positions = p.positions :=
  rfl

@[simp] theorem earlier_handle_aged (index : Nat) :
    earlier g ((p.aged g calls).handle index) = p.handle index :=
  earlier_handleOf g p.generation index

theorem map_earlier (places : List (Nat × Html.Position)) :
    (places.map fun a => (p.aged g calls).handle a.1).map (earlier g) =
      places.map fun a => p.handle a.1 := by
  simp [Function.comp_def]

/-- Another document is all that is left. -/
theorem navigate_eq_aged (hPage : p.pageFault = none) (url source : String) :
    p.navigate url source = (load url source).aged (p.generation + 1) p.calls := by
  simp [navigate, load, aged, hPage]

/-! ### Aged pages go on alike -/

theorem Since.currentIndex_aged (h : Since g e) :
    (p.aged g calls).currentIndex e = p.currentIndex (earlier g e) := by
  obtain ⟨generation, index, rfl, hLimit⟩ := h
  have hEarlier : generation < Word.limit := by omega
  rw [earlier_handleOf]
  unfold currentIndex
  rw [parseHandle_handleOf, parseHandle_handleOf]
  by_cases hIndex : index < Word.limit
  · simp [hLimit, hEarlier, hIndex, aged]
  · simp [hIndex]

theorem place_aged (h : Since g e) (box : Box) :
    (p.aged g calls).place e box = (p.place (earlier g e) box).aged g calls := by
  unfold place
  rw [h.currentIndex_aged]
  split <;> rfl

theorem failElement_aged (h : Since g e) (kind : FaultKind) :
    (p.aged g calls).failElement e kind = (p.failElement (earlier g e) kind).aged g calls := by
  unfold failElement
  rw [h.currentIndex_aged]
  split <;> rfl

theorem detach_aged (h : Since g e) :
    (p.aged g calls).detach e = (p.detach (earlier g e)).aged g calls := by
  unfold detach
  rw [h.currentIndex_aged]
  cases p.currentIndex (earlier g e) with
  | none => rfl
  | some index =>
      simp only [positions_aged]
      cases p.positions[index]? <;> rfl

theorem navigate_aged (url source : String) :
    (p.aged g calls).navigate url source = (p.navigate url source).aged g calls := by
  simp [navigate, aged, Nat.add_right_comm]

/-- An operation on handles since generation `g` does to the aged page what the renamed one does to the
page. -/
theorem perform_aged (p : Page) (calls : Nat) (op : Operation) (h : ∀ e, op.subject? = some e → Since g e) :
    ∃ calls', (p.aged g calls).perform op = (p.perform (op.rename (earlier g))).aged g calls' := by
  cases op with
  | ask q => exact ⟨calls + 1, rfl⟩
  | change c =>
      refine ⟨calls, ?_⟩
      cases c with
      | place e box => exact place_aged (h e rfl) box
      | failElement e kind => exact failElement_aged (h e rfl) kind
      | failPage kind => rfl
      | detach e => exact detach_aged (h e rfl)
      | navigate url source => exact navigate_aged url source

theorem performAll_aged (p : Page) (calls : Nat) (ops : List Operation)
    (h : ∀ op ∈ ops, ∀ e, op.subject? = some e → Since g e) :
    ∃ calls', (p.aged g calls).performAll ops =
      (p.performAll (ops.map (Operation.rename (earlier g)))).aged g calls' := by
  induction ops generalizing p calls with
  | nil => exact ⟨calls, rfl⟩
  | cons op rest ih =>
      obtain ⟨hOp, hRest⟩ := List.forall_mem_cons.mp h
      obtain ⟨calls', hStep⟩ := p.perform_aged calls op hOp
      obtain ⟨calls'', hAll⟩ := ih (p.perform (op.rename (earlier g))) calls' hRest
      refine ⟨calls'', ?_⟩
      show ((p.aged g calls).perform op).performAll rest = _
      rw [hStep, hAll]
      rfl

/-! ### Aged pages answer alike -/

theorem counterparts_aged (q : Question) (index : Nat) (position : Html.Position) :
    Counterparts (earlier g) (p.aged g calls) p q index position index position where
  box := rfl
  similar := .refl position
  text _ _ := rfl
  beneath _ _ _ _ _ := (map_earlier _).symm

theorem findsAlike_aged (h : Since g e) (q : Question) :
    FindsAlike (earlier g) (p.aged g calls) p q e := by
  obtain ⟨generation, index, rfl, hLimit⟩ := h
  have hRead := parseHandle_handleOf (generation + g) index
  have hRead' := parseHandle_handleOf generation index
  rw [← earlier_handleOf g generation index] at hRead'
  by_cases hIndex : index < Word.limit
  · rw [if_pos ⟨hLimit, hIndex⟩] at hRead
    rw [if_pos ⟨by omega, hIndex⟩] at hRead'
    by_cases hGeneration : generation = p.generation
    · subst hGeneration
      refine .of_places hRead hRead' Iff.rfl rfl ?_
      cases hPosition : p.document.positions[index]? with
      | none => exact .inl ⟨hPosition, rfl⟩
      | some position => exact .inr ⟨position, position, hPosition, rfl, counterparts_aged q index position⟩
    · have hOther : generation + g ≠ (p.aged g calls).generation := by
        show generation + g ≠ p.generation + g
        omega
      exact .refused (.stale _) (inspect_of_gone hRead (.inl hOther))
        (inspect_of_gone hRead' (.inl hGeneration))
  · rw [if_neg fun h => hIndex h.2] at hRead hRead'
    exact .refused (.unissued _) (inspect_of_unread hRead) (inspect_of_unread hRead')

theorem mirrors_aged {q : Question} (h : ∀ e, q.subject? = some e → Since g e) :
    Mirrors (earlier g) (p.aged g calls) p q where
  subject e he := findsAlike_aged (h e he) q
  elements _ _ _ _ := (map_earlier _).symm
  title _ := rfl
  url := rfl
  pageFault := rfl

theorem byId_aged (id : String) : p.byId id = ((p.aged g calls).byId id).map (earlier g) := by
  unfold byId
  rw [Option.map_map]
  refine Option.map_congr fun index _ => ?_
  rw [Function.comp_apply, earlier_handle_aged]

theorem since_of_returns (hLimit : p.generation + g < Word.limit)
    (h : (p.aged g calls).Returns e ∨ ∃ id, (p.aged g calls).byId id = some e) : Since g e := by
  have hHandle (index : Nat) : Since g ((p.aged g calls).handle index) :=
    ⟨p.generation, index, rfl, hLimit⟩
  rcases h with hReturns | ⟨id, hFound⟩
  · obtain ⟨index, rfl, _⟩ := hReturns.exists_index
    exact hHandle index
  · obtain ⟨index, _, rfl⟩ := Option.map_eq_some_iff.mp hFound
    exact hHandle index

/-! ### Nothing is left -/

/-- A page that has no fault as a whole and loads another document is, after any operations on handles
that were given out from then on, as a page that starts with that document and on which the same was done
with handles that many generations earlier: it gives the same answers to the same questions, and the same
refusals, it lists the same elements and finds the same ones by their `id`. The handles that it gives out
are among those of which this is said. -/
theorem navigate_forgets (p : Page) (hPage : p.pageFault = none) (url source : String)
    (ops : List Operation)
    (hOps : ∀ op ∈ ops, ∀ e, op.subject? = some e → Since (p.generation + 1) e) :
    let since := Since (p.generation + 1)
    let ρ := earlier (p.generation + 1)
    let later := (p.navigate url source).performAll ops
    let fresh := (load url source).performAll (ops.map (Operation.rename ρ))
    (∀ q : Question, (∀ e, q.subject? = some e → since e) → Echoes ρ later fresh q) ∧
    fresh.handles = later.handles.map ρ ∧
    (∀ id, fresh.byId id = (later.byId id).map ρ) ∧
    (∀ e, later.generation < Word.limit → (later.Returns e ∨ ∃ id, later.byId id = some e) →
      since e) ∧
    ∀ generation index,
      ρ (handleOf (generation + (p.generation + 1)) index) = handleOf generation index := by
  intro since ρ later fresh
  obtain ⟨calls, hLater⟩ := (load url source).performAll_aged p.calls ops hOps
  rw [← navigate_eq_aged hPage url source] at hLater
  have hLater : later = fresh.aged (p.generation + 1) calls := hLater
  rw [hLater]
  refine ⟨fun q hq => (mirrors_aged hq).echoes, (map_earlier _).symm, byId_aged, fun e hLimit => ?_,
    earlier_handleOf _⟩
  exact since_of_returns hLimit

/-- The page with two items, after its body was given a box and a fault and its list was taken out. -/
def twoItemsWorn : Page :=
  twoItems.performAll [.change (.place (handleOf 0 2) ⟨⟨7, 8⟩, ⟨30, 40⟩⟩),
    .change (.failElement (handleOf 0 2) .unexpected), .change (.detach (handleOf 0 3))]

/-- The next page has a body and a paragraph in the places of the worn body and of the list that was taken
out. They answer as on a page that starts with them, and so do all handles after the second paragraph was
taken out. -/
theorem navigate_forgets_twoItems :
    let body := handleOf 1 2
    let paragraph := handleOf 1 3
    let later := (twoItemsWorn.navigate "https://example.org/" "<p>x<p>y").performAll
      [.change (.detach (handleOf 1 4))]
    let fresh := (load "https://example.org/" "<p>x<p>y").performAll
      [.change (.detach (handleOf 0 4))]
    (twoItemsWorn.pageFault = none ∧ twoItemsWorn.boxes = [(2, ⟨⟨7, 8⟩, ⟨30, 40⟩⟩)] ∧
      twoItemsWorn.faults = [(2, .unexpected)] ∧ twoItemsWorn.detached = [3, 4, 5]) ∧
    (Since 1 body ∧ Since 1 paragraph ∧ Since 1 (handleOf 1 4)) ∧
    Echoes (earlier 1) later fresh (.tagName body) ∧ Echoes (earlier 1) later fresh (.size body) ∧
    Echoes (earlier 1) later fresh (.text paragraph) ∧ fresh.handles = later.handles.map (earlier 1) := by
  intro body paragraph later fresh
  have hSince (index : Nat) : Since 1 (handleOf 1 index) := ⟨0, index, rfl, by decide⟩
  have hOps : ∀ op ∈ [Operation.change (.detach (handleOf 1 4))],
      ∀ e, op.subject? = some e → Since 1 e := by
    intro op hop e he
    obtain rfl := List.mem_singleton.mp hop
    obtain rfl := Option.some.inj he
    exact hSince 4
  have hRenamed : [Operation.change (.detach (handleOf 1 4))].map (Operation.rename (earlier 1)) =
      [.change (.detach (handleOf 0 4))] := by
    simp [Operation.rename, Change.rename, earlier]
  have hPage : twoItemsWorn.pageFault = none := by decide +kernel
  have hGeneration : twoItemsWorn.generation = 0 := by decide +kernel
  obtain ⟨hAnswers, hHandles, _⟩ := navigate_forgets twoItemsWorn hPage "https://example.org/" "<p>x<p>y"
    [.change (.detach (handleOf 1 4))] (hGeneration ▸ hOps)
  rw [hGeneration, Nat.zero_add, hRenamed] at hAnswers hHandles
  have hAsk (q : Question) (index : Nat) (hSubject : q.subject? = some (handleOf 1 index)) :
      Echoes (earlier 1) later fresh q := by
    refine hAnswers q fun e he => ?_
    obtain rfl := Option.some.inj (hSubject.symm.trans he)
    exact hSince index
  exact ⟨⟨hPage, by decide +kernel, by decide +kernel, by decide +kernel⟩,
    ⟨hSince 2, hSince 3, hSince 4⟩, hAsk _ 2 rfl, hAsk _ 2 rfl, hAsk _ 3 rfl, hHandles⟩

end PageLogic.Page
