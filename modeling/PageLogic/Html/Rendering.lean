import PageLogic.Html.Position
import PageLogic.Html.Style
/-!
Which elements of a page are seen. An element hides itself and everything beneath it; nothing
beneath a hidden element is seen.
-/
namespace PageLogic.Html

/-- Names of elements that never have a layout box. -/
def unrenderedNames : List String :=
  ["base", "head", "link", "meta", "noscript", "script", "style", "template", "title"]

namespace Element

/-- Whether the element takes itself out of the layout. -/
def isUnrendered (e : Element) : Bool :=
  unrenderedNames.contains e.name || e.hasAttribute "hidden" ||
    (e.name == "input" && e.attribute? "type" == some "hidden") ||
    e.style? "display" == some "none"

/-- Whether the element makes itself invisible though it keeps its place in the layout. -/
def isTransparent (e : Element) : Bool :=
  e.style? "visibility" == some "hidden" ||
    ((e.style? "opacity").bind Style.isPositive?) == some false

end Element

namespace Position

/-- Whether the element has a layout box. -/
def isRendered (p : Position) : Bool :=
  p.selfAndAncestors.all fun q => !q.element.isUnrendered

/-- Whether the element has a layout box and can be seen. -/
def isShown (p : Position) : Bool :=
  p.isRendered && p.selfAndAncestors.all fun q => !q.element.isTransparent

theorem isRendered_of_isShown {p : Position} (h : p.isShown = true) : p.isRendered = true := by
  simp only [isShown, Bool.and_eq_true] at h
  exact h.1

end Position

end PageLogic.Html
