import PageLogic.Html.Node
/-!
Where an element stands in its page: its siblings and the way up to the outermost element.

`Document.positions` lists every element of a page in document order, so that an element's place in
that list identifies it. The elements of a subtree stand in it one after the other.
-/
namespace PageLogic.Html

/-- An element among its siblings. -/
structure Place where
  element : Element
  children : List Node
  /-- The siblings in front, the nearest first. -/
  before : List Node
  /-- The siblings behind, the nearest first. -/
  after : List Node
  deriving Repr

/-- An element's own place, and the places of its ancestors, the nearest first. -/
structure Position where
  place : Place
  above : List Place
  deriving Repr

mutual

/-- The positions of all elements of a tree in document order. -/
def Node.positions (above : List Place) (before after : List Node) : Node → List Position
  | .element e children =>
    let place : Place := ⟨e, children, before, after⟩
    ⟨place, above⟩ :: Node.positionsAll (place :: above) [] children
  | .text _ => []
  | .comment _ => []

/-- The positions of all elements of sibling trees in document order. -/
def Node.positionsAll (above : List Place) (before : List Node) : List Node → List Position
  | [] => []
  | n :: rest => n.positions above before rest ++ Node.positionsAll above (n :: before) rest

end

mutual

theorem Node.length_positions (above : List Place) (before after : List Node) :
    ∀ n : Node, (n.positions above before after).length = n.count
  | .element e children => by
    simp [Node.positions, Node.count, Node.length_positionsAll]
  | .text _ => by simp [Node.positions, Node.count]
  | .comment _ => by simp [Node.positions, Node.count]

theorem Node.length_positionsAll (above : List Place) (before : List Node) :
    ∀ ns : List Node, (Node.positionsAll above before ns).length = Node.countAll ns
  | [] => by simp [Node.positionsAll, Node.countAll]
  | n :: rest => by
    simp [Node.positionsAll, Node.countAll, Node.length_positions above before rest n,
      Node.length_positionsAll above (n :: before) rest]

end

/-- Every element of the page in document order, the outermost first. -/
def Document.positions (d : Document) : List Position :=
  (Node.element d.root d.children).positions [] [] []

namespace Position

def element (p : Position) : Element :=
  p.place.element

/-- The element with everything beneath it. -/
def node (p : Position) : Node :=
  .element p.place.element p.place.children

/-- How many elements the subtree has, the element itself included. -/
def count (p : Position) : Nat :=
  p.node.count

/-- The text of all text nodes of the subtree, in document order. -/
def fullText (p : Position) : List Char :=
  p.node.fullText

/-- Positions along the places that lead upward from an element. -/
def along : List Place → List Position
  | [] => []
  | place :: above => ⟨place, above⟩ :: along above

/-- The ancestors, the nearest first. -/
def ancestors (p : Position) : List Position :=
  along p.above

def parent? (p : Position) : Option Position :=
  p.ancestors.head?

/-- The element and its ancestors, the nearest first. -/
def selfAndAncestors (p : Position) : List Position :=
  p :: p.ancestors

def isOutermost (p : Position) : Bool :=
  p.above.isEmpty

/-- Elements among the siblings in front of a place whose following siblings are `after`. -/
def backward (above : List Place) (after : List Node) : List Node → List Position
  | [] => []
  | .element e children :: before =>
    ⟨⟨e, children, before, after⟩, above⟩ :: backward above (.element e children :: after) before
  | n :: before => backward above (n :: after) before

/-- The sibling elements in front, the nearest first. -/
def elementsBefore (p : Position) : List Position :=
  backward p.above (p.node :: p.place.after) p.place.before

/-- What the sibling elements behind say of themselves, the nearest first. -/
def elementsAfter (p : Position) : List Element :=
  p.place.after.filterMap fun
    | .element e _ => some e
    | _ => none

/-- Whether the element holds neither elements nor text. -/
def isEmpty (p : Position) : Bool :=
  p.place.children.all fun
    | .comment _ => true
    | _ => false

end Position

end PageLogic.Html
