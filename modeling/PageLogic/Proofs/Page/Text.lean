import PageLogic.Proofs.Page.Descent
import PageLogic.Proofs.Text.Blank
/-!
The texts of elements. The text nodes of a subtree are a part of those of every subtree around it. A page
answers with collapsed text, and the text of an element has in it the texts of all elements beneath.
-/
namespace PageLogic

namespace Html

open Position

mutual

/-- The text of an element is a part of the text of the tree that it is found in, and of the text of every
element between. -/
theorem Node.fullText_infix_of_mem_positions (above : List Place) (before after : List Node) :
    ∀ n : Node, ∀ q ∈ n.positions above before after, q.fullText <:+: n.fullText ∧
      ∀ o ∈ q.ancestors, o ∈ along above ∨ q.fullText <:+: o.fullText
  | .element e children => by
    intro q hq
    rw [positions] at hq
    rcases List.mem_cons.mp hq with rfl | hq
    · exact ⟨List.infix_rfl, fun o ho => .inl ho⟩
    · obtain ⟨hWhole, hBetween⟩ := Node.fullText_infix_of_mem_positionsAll _ [] children q hq
      have hNode : q.fullText <:+: (Node.element e children).fullText := by
        rwa [Node.fullText]
      refine ⟨hNode, fun o ho => ?_⟩
      rcases hBetween o ho with hAbove | hInside
      · rcases List.mem_cons.mp hAbove with rfl | hAbove
        · exact .inr hNode
        · exact .inl hAbove
      · exact .inr hInside
  | .text _ | .comment _ => by simp [positions]

theorem Node.fullText_infix_of_mem_positionsAll (above : List Place) (before : List Node) :
    ∀ ns : List Node, ∀ q ∈ positionsAll above before ns, q.fullText <:+: Node.textAll ns ∧
      ∀ o ∈ q.ancestors, o ∈ along above ∨ q.fullText <:+: o.fullText
  | [] => by simp [positionsAll]
  | n :: rest => by
    intro q hq
    rw [positionsAll] at hq
    rw [Node.textAll]
    rcases List.mem_append.mp hq with hq | hq
    · obtain ⟨hWhole, hBetween⟩ :=
        Node.fullText_infix_of_mem_positions above before rest n q hq
      exact ⟨hWhole.trans (List.prefix_append _ _).isInfix, hBetween⟩
    · obtain ⟨hWhole, hBetween⟩ :=
        Node.fullText_infix_of_mem_positionsAll above (n :: before) rest q hq
      exact ⟨hWhole.trans (List.suffix_append _ _).isInfix, hBetween⟩

end

/-- In a page, the text of an element is a part of the text of every element above it. -/
theorem Document.fullText_infix_of_mem_ancestors {d : Document} {outer inner : Position}
    (hInner : inner ∈ d.positions) (hAbove : outer ∈ inner.ancestors) :
    inner.fullText <:+: outer.fullText := by
  obtain ⟨_, hBetween⟩ := Node.fullText_infix_of_mem_positions [] [] [] _ inner hInner
  exact (hBetween outer hAbove).resolve_left nofun

end Html

namespace Page

variable {p : Page}

theorem collapse_textOf (position : Html.Position) :
    String.ofList (Text.collapse (textOf position).toList) = textOf position := by
  simp [textOf, Text.collapse_collapse]

/-- For an element that is alive the page answers with collapsed text, which collapsing leaves as it is,
and the text of every element alive beneath it occurs there in one piece. -/
theorem text_is_compositional (hAddressable : p.Addressable) (outer : Handle) (hAlive : p.Alive outer) :
    ∃ s, p.answer (.text outer) = .ok s ∧ Text.IsCollapsed s.toList ∧
      String.ofList (Text.collapse s.toList) = s ∧
      ∀ inner, p.Below inner outer → p.Alive inner →
        ∃ t, p.answer (.text inner) = .ok t ∧ t.toList <:+: s.toList := by
  obtain ⟨i, position, rfl, hPosition, hInspect⟩ := inspect_of_alive hAddressable hAlive
  have hText {e : Handle} {index : Nat} {position : Html.Position}
      (h : p.inspect e = .ok (index, position)) : p.answer (.text e) = .ok (textOf position) := by
    simp only [answer, aboutElement, h]
    rfl
  refine ⟨textOf position, hText hInspect, ?_, collapse_textOf position, fun inner hBelow hInner => ?_⟩
  · simpa [textOf] using Text.isCollapsed_collapse position.fullText
  · obtain ⟨j, position', rfl, hPosition', hInspect'⟩ := inspect_of_alive hAddressable hInner
    refine ⟨textOf position', hText hInspect', ?_⟩
    obtain ⟨outer, inner, hOuter, hInner, hAbove⟩ := below_handle_iff.mp hBelow
    obtain rfl := Option.some.inj (hOuter.symm.trans hPosition)
    obtain rfl := Option.some.inj (hInner.symm.trans hPosition')
    have hPart := Html.Document.fullText_infix_of_mem_ancestors (List.mem_of_getElem? hInner) hAbove
    simpa [textOf] using Text.collapse_infix hPart

/-- A page with a paragraph in which a word goes on behind the element that it begins in. -/
def brokenWord : Page :=
  load "https://example.org/" "<p>  Mini<b>stache </b>\n  page </p>"

/-- The text of the inner element is a part of a word there. -/
theorem text_is_compositional_brokenWord :
    let outer := brokenWord.handle 3
    let inner := brokenWord.handle 4
    brokenWord.Alive outer ∧ brokenWord.Below inner outer ∧ brokenWord.Alive inner ∧
      brokenWord.answer (.text outer) = .ok "Ministache page" ∧
      brokenWord.answer (.text inner) = .ok "stache" ∧
      "stache".toList <:+: "Ministache page".toList := by
  intro outer inner
  have hLength : brokenWord.document.positions.length = 5 := by decide +kernel
  obtain ⟨paragraph, hParagraph⟩ : ∃ position, brokenWord.document.positions[3]? = some position :=
    ⟨_, List.getElem?_eq_getElem (hLength ▸ by decide)⟩
  obtain ⟨bold, hBold⟩ : ∃ position, brokenWord.document.positions[4]? = some position :=
    ⟨_, List.getElem?_eq_getElem (hLength ▸ by decide)⟩
  have hOuter : brokenWord.Alive outer := ⟨3, paragraph, rfl, hParagraph, nofun, rfl⟩
  have hInner : brokenWord.Alive inner := ⟨4, bold, rfl, hBold, nofun, rfl⟩
  have hCount : paragraph.count = 2 := by
    have hCounted : brokenWord.document.positions[3]?.map (·.count) = some 2 := by decide +kernel
    rw [hParagraph] at hCounted
    exact Option.some.inj hCounted
  have hBelow : brokenWord.Below inner outer := by
    rw [below_handle_iff_between hParagraph hBold, hCount]
    decide
  have hText : brokenWord.answer (.text outer) = .ok "Ministache page" := by decide +kernel
  have hText' : brokenWord.answer (.text inner) = .ok "stache" := by decide +kernel
  obtain ⟨s, hs, _, _, hBeneath⟩ :=
    text_is_compositional ⟨by decide, hLength ▸ by decide⟩ outer hOuter
  obtain ⟨t, ht, hPart⟩ := hBeneath inner hBelow hInner
  obtain rfl := Except.ok.inj (hText.symm.trans hs)
  obtain rfl := Except.ok.inj (hText'.symm.trans ht)
  exact ⟨hOuter, hBelow, hInner, hText, hText', hPart⟩

end Page

end PageLogic
