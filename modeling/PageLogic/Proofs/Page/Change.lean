import PageLogic.Proofs.Page.Facts
import PageLogic.Proofs.Search.Invariance
/-!
How a page comes to be another: by questions, which are counted, and by changes. Only another document
begins a new generation, and no generation comes back. A handle is answered for, or refused with a
fault that is not a recognized one, in its own generation only.
-/
namespace PageLogic.Page

variable {p : Page} {e : Handle} {generation index : Nat}

/-! ### Questions -/

/-- The page after some questions. -/
def Asked (p p' : Page) : Prop :=
  ∃ calls, p' = { p with calls }

theorem Asked.refl (p : Page) : p.Asked p :=
  ⟨p.calls, rfl⟩

theorem Asked.generation_eq {p' : Page} (h : p.Asked p') : p'.generation = p.generation := by
  obtain ⟨calls, rfl⟩ := h
  rfl

theorem Asked.answer_eq {p' : Page} (h : p.Asked p') (q : Question) : p'.answer q = p.answer q := by
  obtain ⟨calls, rfl⟩ := h
  exact p.answer_calls calls q

/-- A question is counted, and that is all. -/
theorem keeps_asked (p : Page) : oracle.Keeps p.Asked := by
  rintro q _ ⟨calls, rfl⟩
  exact ⟨calls + 1, rfl⟩

/-- Nor does it change the answers. -/
theorem replies_asked (p : Page) (q : Question) : oracle.Replies p.Asked q (p.answer q) :=
  fun p' h => ⟨h.answer_eq q, p.keeps_asked q p' h⟩

theorem Asked.pull {w : World Page} (h : p.Asked w.state) (s : Search) :
    p.Asked (s.pull oracle w).2.state :=
  s.pull_keeps p.keeps_asked h

/-! ### Changes -/

/-- What can be done to a page. -/
inductive Change where
  | place (e : Handle) (box : Box)
  | failElement (e : Handle) (kind : FaultKind)
  | failPage (kind : Option FaultKind)
  | detach (e : Handle)
  | navigate (url source : String)

/-- The page after a change. -/
def change (p : Page) : Change → Page
  | .place e box => p.place e box
  | .failElement e kind => p.failElement e kind
  | .failPage kind => p.failPage kind
  | .detach e => p.detach e
  | .navigate url source => p.navigate url source

theorem generation_place (p : Page) (e : Handle) (box : Box) :
    (p.place e box).generation = p.generation := by
  unfold place
  split <;> rfl

theorem generation_failElement (p : Page) (e : Handle) (kind : FaultKind) :
    (p.failElement e kind).generation = p.generation := by
  unfold failElement
  split <;> rfl

theorem generation_detach (p : Page) (e : Handle) : (p.detach e).generation = p.generation := by
  unfold detach
  split
  · split <;> rfl
  · rfl

/-- No change goes back to an older generation. -/
theorem generation_le_change (p : Page) (c : Change) :
    p.generation ≤ (p.change c).generation := by
  cases c with
  | place e box => exact (p.generation_place e box).ge
  | failElement e kind => exact (p.generation_failElement e kind).ge
  | failPage kind => exact Nat.le_refl _
  | detach e => exact (p.generation_detach e).ge
  | navigate url source => exact Nat.le_succ _

/-! ### Handles in time -/

/-- The handle names an element that is part of the page and carries no fault. -/
def Alive (p : Page) (e : Handle) : Prop :=
  ∃ index position, e = p.handle index ∧ p.document.positions[index]? = some position ∧
    index ∉ p.detached ∧ p.faults.lookup index = none

/-- A handle that is read back names the generation and the place it was made from. -/
theorem eq_of_parseHandle_handleOf {generation' index' : Nat}
    (h : parseHandle (handleOf generation index) = some (generation', index')) :
    generation' = generation ∧ index' = index := by
  rw [parseHandle_handleOf] at h
  split at h
  · obtain ⟨rfl, rfl⟩ := Prod.mk.inj (Option.some.inj h)
    exact ⟨rfl, rfl⟩
  · cases h

theorem lookup_of_inspect {found : Nat × Html.Position} (h : p.inspect e = .ok found) :
    p.faults.lookup found.1 = none := by
  unfold inspect at h
  split at h
  · cases h
  · split at h
    · cases h
    · split at h
      · cases h
      · split at h
        · cases h
        · next hNone =>
            obtain rfl := Except.ok.inj h
            exact hNone

/-- A handle that is answered for is one of the present generation, and of an element that is
alive. -/
theorem alive_of_inspect {found : Nat × Html.Position}
    (h : p.inspect (handleOf generation index) = .ok found) :
    p.generation = generation ∧ p.Alive (handleOf generation index) := by
  obtain ⟨hParse, hAttached, hPosition⟩ := inspect_eq_ok h
  obtain ⟨hGeneration, hIndex⟩ := eq_of_parseHandle_handleOf hParse
  refine ⟨hGeneration, found.1, found.2, ?_, hPosition, hAttached, lookup_of_inspect h⟩
  rw [hIndex, ← hGeneration]
  rfl

/-- A fault that is not a recognized one was given to an element of the present generation. -/
theorem generation_of_inspect_error {f : Fault}
    (h : p.inspect (handleOf generation index) = .error f) (hf : f.isRecognized = false) :
    p.generation = generation := by
  unfold inspect at h
  split at h
  · obtain rfl := Except.error.inj h
    cases hf
  · next generation' index' hParse =>
      split at h
      · obtain rfl := Except.error.inj h
        cases hf
      · next hCurrent =>
          obtain ⟨rfl, rfl⟩ := eq_of_parseHandle_handleOf hParse
          simp only [Bool.or_eq_true, decide_eq_true_eq, not_or, ne_eq, not_not] at hCurrent
          exact hCurrent.1.symm

/-- Every element that a page enumerates has a handle of the present generation. -/
theorem exists_index_of_mem_elements {scope : String} {es : List Handle}
    (h : p.answer (.elements scope) = .ok es) (he : e ∈ es) :
    ∃ index, e = handleOf p.generation index := by
  obtain ⟨s, rfl⟩ := answer_elements_eq_ok h
  obtain ⟨a, _, rfl⟩ := List.mem_map.mp he
  exact ⟨a.1, rfl⟩

end PageLogic.Page
