import PageLogic.Proofs.Page.Handle
import PageLogic.Proofs.Search.Delivery
import Mathlib.Data.List.Nodup
/-!
What a page enumerates and whom it answers. An enumeration has every element at most once, and that
of the selector that admits everything has every element that answers questions.
-/
namespace PageLogic.Page

variable {p : Page} {e : Handle} {index : Nat} {position : Html.Position}
  {wanted : Html.Position → Bool}

/-- No element answers with an unrecognized fault. -/
def ElementsExpected (p : Page) : Prop :=
  ∀ index, p.faults.lookup index ≠ some .unexpected

/-! ### Attached elements -/

theorem attached_eq (p : Page) (wanted : Html.Position → Bool) :
    p.attached wanted = (p.document.positions.zipIdx.filter fun a =>
      wanted a.1 && !p.detached.contains a.2).map Prod.swap := by
  rw [attached, ← List.filterMap_eq_map, List.filterMap_filter]
  rfl

theorem mem_attached :
    (index, position) ∈ p.attached wanted ↔
      p.document.positions[index]? = some position ∧ wanted position = true ∧
        index ∉ p.detached := by
  rw [attached_eq, List.mem_map]
  constructor
  · rintro ⟨⟨position, index⟩, hMem, hSwap⟩
    obtain ⟨rfl, rfl⟩ := Prod.mk.inj hSwap
    obtain ⟨hMem, hWanted⟩ := List.mem_filter.mp hMem
    rw [List.mem_zipIdx_iff_getElem?] at hMem
    simpa [hMem] using hWanted
  · rintro ⟨hPosition, hWanted, hDetached⟩
    refine ⟨(position, index), List.mem_filter.mpr ⟨?_, by simp [hWanted, hDetached]⟩, rfl⟩
    rwa [List.mem_zipIdx_iff_getElem?]

/-- An attached element stands at one place. -/
theorem nodup_places (p : Page) (wanted : Html.Position → Bool) :
    ((p.attached wanted).map Prod.fst).Nodup := by
  have hPlaces : (p.document.positions.zipIdx.map Prod.snd).Nodup := by
    rw [List.zipIdx_map_snd]
    exact List.nodup_range'
  rw [attached_eq, List.map_map]
  exact (List.filter_sublist.map _).nodup hPlaces

/-- The handles of elements at different places are different. -/
theorem nodup_handles {places : List (Nat × Html.Position)} (h : (places.map Prod.fst).Nodup) :
    (places.map fun a => p.handle a.1).Nodup := by
  have hMap : (places.map fun a => p.handle a.1) = (places.map Prod.fst).map p.handle := by
    rw [List.map_map]
    rfl
  rw [hMap]
  exact List.Nodup.map (fun i j hij => handleOf_injective hij) h

/-! ### Enumerations -/

theorem nodup_matching (p : Page) (s : Css.Selector) : (p.matching s).Nodup := by
  refine nodup_handles ?_
  exact ((List.mergeSort_perm _ _).map Prod.fst).nodup_iff.mpr (p.nodup_places _)

theorem nodup_matchingBelow (p : Page) (index : Nat) (parent : Html.Position) (s : Css.Selector) :
    (p.matchingBelow index parent s).Nodup :=
  nodup_handles ((List.filter_sublist.map _).nodup (p.nodup_places _))

/-- Elements that were made in document order are enumerated in document order. -/
theorem matching_eq_map_attached {s : Css.Selector}
    (h : (p.attached fun position => s.matches none position).Pairwise fun a b =>
      a.2.element.birth ≤ b.2.element.birth) :
    p.matching s =
      (p.attached fun position => s.matches none position).map fun a => p.handle a.1 := by
  rw [matching, List.mergeSort_of_pairwise (h.imp fun hLe => decide_eq_true hLe)]

theorem issued_of_mem_matching {s : Css.Selector} (h : e ∈ p.matching s) : p.Issued e := by
  obtain ⟨a, _, rfl⟩ := List.mem_map.mp h
  exact p.issued_handle a.1

theorem issued_of_mem_matchingBelow {parent : Html.Position} {s : Css.Selector}
    (h : e ∈ p.matchingBelow index parent s) : p.Issued e := by
  obtain ⟨a, _, rfl⟩ := List.mem_map.mp h
  exact p.issued_handle a.1

theorem mem_matching {s : Css.Selector} :
    p.handle index ∈ p.matching s ↔
      ∃ position, p.document.positions[index]? = some position ∧ s.matches none position = true ∧
        index ∉ p.detached := by
  unfold matching
  rw [List.mem_map]
  constructor
  · rintro ⟨⟨i, position⟩, hMem, hHandle⟩
    obtain rfl := handleOf_injective hHandle
    exact ⟨position, mem_attached.mp (List.mem_mergeSort.mp hMem)⟩
  · rintro ⟨position, h⟩
    exact ⟨(index, position), List.mem_mergeSort.mpr (mem_attached.mpr h), rfl⟩

/-- The selector of the scope that admits everything. -/
def everyElement : Css.Selector :=
  ⟨[.compound [.universal]]⟩

theorem everyElement_matches (start : Option Html.Element) (position : Html.Position) :
    everyElement.matches start position = true := by
  simp [everyElement, Css.Selector.matches, Css.Complex.anyMatches, Css.Complex.matches,
    Css.Simple.allHold, Css.Simple.holds]

theorem answer_elements_star (p : Page) : p.answer (.elements "*") = .ok (p.matching everyElement) :=
  rfl

/-- What the page enumerates is what a selector matches. -/
theorem answer_elements_eq_ok {scope : String} {es : List Handle}
    (h : p.answer (.elements scope) = .ok es) : ∃ s, es = p.matching s := by
  have hAnswer : (selector scope).map p.matching = .ok es := h
  cases hSelector : selector scope with
  | error f =>
      rw [hSelector] at hAnswer
      cases hAnswer
  | ok s =>
      rw [hSelector] at hAnswer
      exact ⟨s, (Except.ok.inj hAnswer).symm⟩

/-! ### Answers about one element -/

theorem inspect_eq_ok {found : Nat × Html.Position} (h : p.inspect e = .ok found) :
    parseHandle e = some (p.generation, found.1) ∧ found.1 ∉ p.detached ∧
      p.document.positions[found.1]? = some found.2 := by
  unfold inspect at h
  cases hParse : parseHandle e with
  | none => simp [hParse] at h
  | some place =>
      obtain ⟨generation, index⟩ := place
      simp only [hParse] at h
      split at h
      · cases h
      · rename_i hCurrent
        simp only [Bool.or_eq_true, decide_eq_true_eq, List.contains_iff_mem, not_or, ne_eq,
          not_not] at hCurrent
        obtain ⟨rfl, hAttached⟩ := hCurrent
        split at h
        · cases h
        · rename_i position hPosition
          split at h
          · cases h
          · obtain rfl := Except.ok.inj h
            exact ⟨rfl, hAttached, by simpa [positions] using hPosition⟩

theorem inspect_eq_error (hExpected : p.ElementsExpected) {f : Fault} (h : p.inspect e = .error f) :
    f.isRecognized = true := by
  unfold inspect at h
  split at h
  · obtain rfl := Except.error.inj h
    rfl
  · split at h
    · obtain rfl := Except.error.inj h
      rfl
    · split at h
      · obtain rfl := Except.error.inj h
        rfl
      · split at h
        · rename_i kind hFault
          obtain rfl := Except.error.inj h
          cases kind with
          | unexpected => exact absurd hFault (hExpected _)
          | _ => rfl
        · cases h

/-- An issued handle that is answered for is among those of the whole page. -/
theorem mem_matching_of_inspect (hIssued : p.Issued e) {found : Nat × Html.Position}
    (h : p.inspect e = .ok found) : e ∈ p.matching everyElement := by
  obtain ⟨hParse, hAttached, hPosition⟩ := inspect_eq_ok h
  rw [hIssued.eq_handle hParse, mem_matching]
  exact ⟨found.2, hPosition, everyElement_matches _ _, hAttached⟩

theorem answer_calls (p : Page) (calls : Nat) (q : Question) :
    { p with calls }.answer q = p.answer q := by
  cases q <;> rfl

/-- Questions change only how often the page was asked. -/
theorem steady (p : Page) : oracle.Steady p.answer p := by
  intro questions q
  induction questions generalizing p with
  | nil => rfl
  | cons q' questions ih =>
      have hRest := ih { p with calls := p.calls + 1 }
      rw [answer_calls] at hRest
      exact hRest

end PageLogic.Page
