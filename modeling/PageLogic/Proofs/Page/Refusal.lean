import PageLogic.Proofs.Page.Descent
/-!
Refusals. A page that does not answer has one of five reasons. Whether it takes a handle for one of its
elements is decided by the generation and the place that are read from the text of the handle.
-/
namespace PageLogic.Page

variable {p : Page} {e : Handle} {generation index : Nat} {position : Html.Position}

/-- Why a page refuses to answer. -/
inductive Refusal where
  /-- The text of the handle is not one that pages give out. -/
  | unissued (e : Handle)
  /-- The handle is of another document, or its element was taken out. -/
  | stale (e : Handle)
  | failing (e : Handle) (kind : FaultKind)
  | failingPage (what : String) (kind : FaultKind)
  | unreadable (scope : String)

/-- The fault that the page answers with. -/
def Refusal.fault : Refusal → Fault
  | .unissued e => ⟨.invalidElementState, e.display ++ " was not issued by this document"⟩
  | .stale e => ⟨.invalidElementState, e.display ++ " is no longer attached to the document"⟩
  | .failing e kind => injected kind ("on " ++ e.display)
  | .failingPage what kind => injected kind ("reading " ++ what)
  | .unreadable scope => ⟨.unknownServer, "invalid selector '" ++ scope ++ "'"⟩

/-- The handle names the element at a place of the present document, and the element is attached. -/
structure Names (p : Page) (e : Handle) (index : Nat) (position : Html.Position) : Prop where
  read : parseHandle e = some (p.generation, index)
  attached : index ∉ p.detached
  found : p.document.positions[index]? = some position

theorem inspect_of_unread (h : parseHandle e = none) :
    p.inspect e = .error (Refusal.unissued e).fault := by
  simp [inspect, h, Refusal.fault]

theorem inspect_of_gone (hRead : parseHandle e = some (generation, index))
    (h : generation ≠ p.generation ∨ index ∈ p.detached ∨ p.document.positions[index]? = none) :
    p.inspect e = .error (Refusal.stale e).fault := by
  unfold inspect
  simp only [hRead]
  split
  · rfl
  · next hCurrent =>
      simp only [Bool.or_eq_true, decide_eq_true_eq, List.contains_iff_mem, not_or, ne_eq,
        not_not] at hCurrent
      have hNone : p.positions[index]? = none := by
        simpa [positions, hCurrent.1, hCurrent.2] using h
      simp [hNone, Refusal.fault]

theorem Names.inspect_eq_ok (h : p.Names e index position)
    (hFault : p.faults.lookup index = none) : p.inspect e = .ok (index, position) := by
  have hFound : p.positions[index]? = some position := by simpa [positions] using h.found
  simp [inspect, h.read, h.attached, hFound, hFault]

theorem Names.inspect_eq_failing {kind : FaultKind} (h : p.Names e index position)
    (hFault : p.faults.lookup index = some kind) :
    p.inspect e = .error (Refusal.failing e kind).fault := by
  have hFound : p.positions[index]? = some position := by simpa [positions] using h.found
  simp [inspect, h.read, h.attached, hFound, hFault, Refusal.fault]

/-- The handle is not read, or it is stale, or it names an attached element. -/
theorem inspect_cases (p : Page) (e : Handle) :
    p.inspect e = .error (Refusal.unissued e).fault ∨
    p.inspect e = .error (Refusal.stale e).fault ∨
    ∃ index position, p.Names e index position := by
  cases hRead : parseHandle e with
  | none => exact .inl (inspect_of_unread hRead)
  | some place =>
      obtain ⟨generation, index⟩ := place
      refine .inr ?_
      by_cases hGeneration : generation = p.generation
      · subst hGeneration
        by_cases hAttached : index ∈ p.detached
        · exact .inl (inspect_of_gone hRead (.inr (.inl hAttached)))
        · cases hFound : p.document.positions[index]? with
          | none => exact .inl (inspect_of_gone hRead (.inr (.inr hFound)))
          | some position => exact .inr ⟨index, position, hRead, hAttached, hFound⟩
      · exact .inl (inspect_of_gone hRead (.inl hGeneration))

/-- The page takes the handle for one of its elements: neither was it not issued, nor is it stale. -/
def Accepts (p : Page) (e : Handle) : Prop :=
  p.inspect e ≠ .error (Refusal.unissued e).fault ∧ p.inspect e ≠ .error (Refusal.stale e).fault

theorem Names.accepts (h : p.Names e index position) : p.Accepts e := by
  unfold Accepts
  cases hFault : p.faults.lookup index with
  | none =>
      rw [h.inspect_eq_ok hFault]
      exact ⟨nofun, nofun⟩
  | some kind =>
      rw [h.inspect_eq_failing hFault]
      -- The detail of an injected fault starts with a letter, the other details with a bracket.
      have hDetail (text : String) : "injected fault " ++ ("on " ++ e.display) ≠ e.display ++ text := by
        intro h
        have hHead := congrArg (fun s => s.toList.head?) h
        simp [Handle.display] at hHead
      constructor <;>
      · intro h
        exact hDetail _ (congrArg Fault.detail (Except.error.inj h))

theorem accepts_iff : p.Accepts e ↔ ∃ index position, p.Names e index position := by
  constructor
  · intro h
    rcases p.inspect_cases e with hUnissued | hStale | hNames
    · exact absurd hUnissued h.1
    · exact absurd hStale h.2
    · exact hNames
  · rintro ⟨index, position, h⟩
    exact h.accepts

end PageLogic.Page
