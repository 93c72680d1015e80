import PageLogic.Proofs.Html.Insertion
import PageLogic.Proofs.Page.Visibility
/-!
What a page says of attributes. It looks for the name that it is asked for in lower case, however the
element spells it. An element of the page's own vocabulary says all its names so; the names with capitals
that elements of drawings and formulas carry are never found.
-/
namespace PageLogic.Page

open Text

variable {p : Page} {e : Handle}

/-- Whatever happened to it, a page shows the document of some source. -/
theorem exists_source (url source : String) (ops : List Operation) :
    ∃ source', ((load url source).performAll ops).document = .parse source' := by
  refine performAll_induction (P := fun p => ∃ source', p.document = .parse source') ⟨source, rfl⟩
    (fun p op hSource => ?_) ops
  rcases p.perform_cases op with
    ⟨hDocument, -⟩ | ⟨a, index, position, -, -, -, hEq⟩ | ⟨url, source', -, hEq⟩
  · rwa [hDocument]
  · rwa [hEq]
  · exact ⟨source', hEq ▸ rfl⟩

/-- So its elements carry attributes as elements of parsed documents do. -/
theorem proper_of_mem_positions {url source : String} {ops : List Operation} {position : Html.Position}
    (h : position ∈ ((load url source).performAll ops).document.positions) :
    Html.Proper position.element.space position.element.attributes := by
  obtain ⟨source', hDocument⟩ := exists_source url source ops
  rw [hDocument] at h
  exact Html.Document.proper_of_mem_positions h

theorem answer_attribute {index : Nat} {position : Html.Position}
    (h : p.inspect e = .ok (index, position)) (name : String) :
    p.answer (.attribute e name) = .ok (position.element.attribute? (lowercaseAscii name)) :=
  aboutElement_of_inspect (f := fun _ position => position.element.attribute? (lowercaseAscii name)) h

/-- A page that was changed and asked in any order answers alike under all spellings of a name. It reads,
off an element that is alive, the attribute without vocabulary whose name is the one it is asked for in
lower case. So it reads every attribute of an element of the page's own vocabulary, and every attribute
whose name is in lower case. Other names are among those with capitals that drawings and formulas have:
such an attribute is not found, unless the element carries another that is named so in lower case. -/
theorem attributes_are_read_in_lower_case (url source : String) (ops : List Operation) (e : Handle)
    (hAddressable : ((load url source).performAll ops).Addressable)
    (hAlive : ((load url source).performAll ops).Alive e) :
    let p := (load url source).performAll ops
    ∃ index position, e = p.handle index ∧ p.document.positions[index]? = some position ∧
      let element := position.element
      (∀ name name', lowercaseAscii name = lowercaseAscii name' →
        p.answer (.attribute e name) = p.answer (.attribute e name')) ∧
      (∀ name value, p.answer (.attribute e name) = .ok (some value) ↔
        ∃ a ∈ element.attributes, a.space = .none ∧ a.name = lowercaseAscii name ∧ a.value = value) ∧
      (∀ name, p.answer (.attribute e name) = .ok none ↔
        ∀ a ∈ element.attributes, a.space = .none → a.name ≠ lowercaseAscii name) ∧
      ∀ a ∈ element.attributes, a.space = .none →
        (element.space = .html → Html.IsFolded a.name) ∧
        (Html.IsFolded a.name → p.answer (.attribute e a.name) = .ok (some a.value)) ∧
        (¬ Html.IsFolded a.name → a.name ∈ (Html.capitalized element.space).map (·.2) ∧
          (p.answer (.attribute e a.name) = .ok none ∨ ∃ other ∈ element.attributes,
            other.space = .none ∧ other.name = lowercaseAscii a.name ∧
            p.answer (.attribute e a.name) = .ok (some other.value))) := by
  intro p
  obtain ⟨index, position, hName, hPosition, hInspect⟩ := inspect_of_alive hAddressable hAlive
  refine ⟨index, position, hName, hPosition, ?_⟩
  intro element
  have hProper : Html.Proper element.space element.attributes :=
    proper_of_mem_positions (List.mem_of_getElem? hPosition)
  have hAnswer := answer_attribute hInspect
  have hSome (name value : String) : p.answer (.attribute e name) = .ok (some value) ↔
      ∃ a ∈ element.attributes, a.space = .none ∧ a.name = lowercaseAscii name ∧ a.value = value := by
    rw [hAnswer, ← Html.Element.attribute?_eq_some_iff hProper]
    exact ⟨fun h => Except.ok.inj h, congrArg _⟩
  have hNone (name : String) : p.answer (.attribute e name) = .ok none ↔
      ∀ a ∈ element.attributes, a.space = .none → a.name ≠ lowercaseAscii name := by
    rw [hAnswer, ← Html.Element.attribute?_eq_none_iff hProper]
    exact ⟨fun h => Except.ok.inj h, congrArg _⟩
  refine ⟨fun name name' hSpelled => by rw [hAnswer, hAnswer, hSpelled], hSome, hNone,
    fun a ha hSpace => ⟨fun hHtml => ?_, fun hFolded => ?_, fun hCapitals => ⟨?_, ?_⟩⟩⟩
  · exact (hHtml ▸ hProper).isFolded_of_html ha hSpace
  · exact (hSome a.name a.value).mpr ⟨a, ha, hSpace, hFolded.symm, rfl⟩
  · exact (hProper.named a ha hSpace).resolve_left hCapitals
  · cases hFound : element.attribute? (lowercaseAscii a.name) with
    | none => exact .inl ((hAnswer a.name).trans (congrArg _ hFound))
    | some value =>
        obtain ⟨other, hOther, hOtherSpace, hOtherName, rfl⟩ :=
          (Html.Element.attribute?_eq_some_iff hProper).mp hFound
        exact .inr ⟨other, hOther, hOtherSpace, hOtherName,
          (hAnswer a.name).trans (congrArg _ hFound)⟩

/-- A page with a drawing that says how wide it is and what part of it is seen. -/
def drawing : Page :=
  load "https://example.org/" "<svg WIDTH=2 viewBox='0 0 1 1'></svg>"

/-- The drawing can be asked, and carries both attributes. -/
theorem drawing_carries : drawing.Addressable ∧ drawing.Alive (drawing.handle 3) ∧
    ∃ position, drawing.document.positions[3]? = some position ∧ position.element =
      ⟨4, .svg, "svg", [⟨.none, "width", "2"⟩, ⟨.none, "viewBox", "0 0 1 1"⟩]⟩ := by
  have hLength : drawing.document.positions.length = 4 := by decide +kernel
  have hElement : drawing.document.positions[3]?.map (·.element) =
      some ⟨4, .svg, "svg", [⟨.none, "width", "2"⟩, ⟨.none, "viewBox", "0 0 1 1"⟩]⟩ := by
    decide +kernel
  obtain ⟨position, hPosition, hEq⟩ := Option.map_eq_some_iff.mp hElement
  exact ⟨⟨by decide, hLength ▸ by decide⟩, ⟨3, position, rfl, hPosition, nofun, rfl⟩, position,
    hPosition, hEq⟩

/-- The width is found under any spelling, and the part that is seen under none. -/
theorem attributes_are_read_in_lower_case_drawing :
    drawing.Addressable ∧ drawing.Alive (drawing.handle 3) ∧
      drawing.answer (.attribute (drawing.handle 3) "Width") = .ok (some "2") ∧
      drawing.answer (.attribute (drawing.handle 3) "viewbox") = .ok none := by
  obtain ⟨hAddressable, hAlive, position, hPosition, hElement⟩ := drawing_carries
  obtain ⟨index, position', hName, hPosition', -, hSome, hNone, -⟩ :=
    attributes_are_read_in_lower_case "https://example.org/" "<svg WIDTH=2 viewBox='0 0 1 1'></svg>" []
      (drawing.handle 3) hAddressable hAlive
  obtain rfl : 3 = index := handleOf_injective hName
  obtain rfl : position = position' := Option.some.inj (hPosition.symm.trans hPosition')
  rw [hElement] at hSome hNone
  exact ⟨hAddressable, hAlive,
    (hSome "Width" "2").mpr ⟨⟨.none, "width", "2"⟩, List.mem_cons_self, rfl, by decide, rfl⟩,
    (hNone "viewbox").mpr (by decide)⟩

/-- Of the attributes without vocabulary that elements carry, some are not read even under the name that
the element spells. -/
theorem capitals_are_overlooked :
    ∃ position, drawing.document.positions[3]? = some position ∧
      ⟨.none, "viewBox", "0 0 1 1"⟩ ∈ position.element.attributes ∧
      drawing.Alive (drawing.handle 3) ∧
      drawing.answer (.attribute (drawing.handle 3) "viewBox") = .ok none := by
  obtain ⟨hAddressable, hAlive, position, hPosition, hElement⟩ := drawing_carries
  obtain ⟨index, position', hName, hPosition', hInspect⟩ := inspect_of_alive hAddressable hAlive
  obtain rfl : 3 = index := handleOf_injective hName
  obtain rfl : position = position' := Option.some.inj (hPosition.symm.trans hPosition')
  refine ⟨position, hPosition, ?_, hAlive, ?_⟩
  · rw [hElement]
    decide
  · rw [answer_attribute hInspect, hElement]
    decide

end PageLogic.Page
