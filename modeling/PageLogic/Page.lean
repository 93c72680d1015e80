import PageLogic.Css.Selector.Parse
import PageLogic.Html.Parse
import PageLogic.Html.Rendering
import PageLogic.Question
import PageLogic.Term.Display
import PageLogic.Word
/-!
Pages held in memory: an oracle that answers from a parsed document.

Nothing is laid out, so an element has no extent until it is given one. Elements can be detached,
and elements and the page can be made to answer with a fault. A handle names the generation of its
page and the element's place in document order; loading another document begins a new generation.
-/
namespace PageLogic

/-- Where an element was placed, and its extent. -/
structure Box where
  location : Location
  size : Size
  deriving DecidableEq, Repr

structure Page where
  document : Html.Document
  url : String
  /-- How often another document was loaded. -/
  generation : Nat
  /-- The elements, by their place in document order, that were taken out. -/
  detached : List Nat
  /-- Boxes that elements were given, the newest first. -/
  boxes : List (Nat × Box)
  /-- Faults that elements were given, the newest first. -/
  faults : List (Nat × FaultKind)
  /-- The fault of questions about the page as a whole. -/
  pageFault : Option FaultKind
  /-- How many questions were asked so far. -/
  calls : Nat

namespace Page

/-- A page as it is when its document has just been loaded. -/
def load (url source : String) : Page :=
  ⟨.parse source, url, 0, [], [], [], none, 0⟩

/-- Every element in document order. -/
def positions (p : Page) : Array Html.Position :=
  p.document.positions.toArray

/-- The handle of the element at a place in document order. -/
def handle (p : Page) (index : Nat) : Handle :=
  ⟨"node-" ++ toString p.generation ++ "-" ++ toString index⟩

/-- The generation and the place that a handle names. Both are numbers of 64 bits. -/
def parseHandle (h : Handle) : Option (Nat × Nat) := do
  let rest ← Text.after? "node-".toList h.id.toList
  let (generation, index) ← Text.cutAt (· == '-') rest
  let generation ← Text.natBelow? Word.limit generation
  let index ← Text.natBelow? Word.limit index
  some (generation, index)

/-- The place that a handle of the present generation names. -/
def currentIndex (p : Page) (h : Handle) : Option Nat :=
  match parseHandle h with
  | some (generation, index) => if generation = p.generation then some index else none
  | none => none

/-! ### Questions -/

/-- A fault that an element or the page was given. -/
def injected (kind : FaultKind) (about : String) : Fault :=
  ⟨kind, "injected fault " ++ about⟩

/-- The element that a handle names: its place in document order and its position. -/
def inspect (p : Page) (h : Handle) : Except Fault (Nat × Html.Position) :=
  match parseHandle h with
  | none => .error ⟨.invalidElementState, h.display ++ " was not issued by this document"⟩
  | some (generation, index) =>
    let stale : Fault :=
      ⟨.invalidElementState, h.display ++ " is no longer attached to the document"⟩
    if generation ≠ p.generation || p.detached.contains index then .error stale
    else
      match p.positions[index]? with
      | none => .error stale
      | some position =>
        match p.faults.lookup index with
        | some kind => .error (injected kind ("on " ++ h.display))
        | none => .ok (index, position)

/-- The selector of a scope. -/
def selector (scope : String) : Except Fault Css.Selector :=
  match Css.Selector.parse? scope with
  | some s => .ok s
  | none => .error ⟨.unknownServer, "invalid selector '" ++ scope ++ "'"⟩

/-- The elements that are attached and satisfy a condition, with their places in document order. -/
def attached (p : Page) (wanted : Html.Position → Bool) : List (Nat × Html.Position) :=
  p.document.positions.zipIdx.filterMap fun (position, index) =>
    if wanted position && !p.detached.contains index then some (index, position) else none

/-- The elements of the whole page that a selector matches, the oldest first. -/
def matching (p : Page) (s : Css.Selector) : List Handle :=
  let found := p.attached fun position => s.matches none position
  (found.mergeSort fun a b => a.2.element.birth ≤ b.2.element.birth).map fun a => p.handle a.1

/-- The elements beneath one that a selector matches, in document order. -/
def matchingBelow (p : Page) (index : Nat) (parent : Html.Position) (s : Css.Selector) :
    List Handle :=
  let found := p.attached fun position => s.matches (some parent.element) position
  (found.filter fun a => index < a.1 && a.1 < index + parent.count).map fun a => p.handle a.1

/-- The text of an element with every run of blanks collapsed. -/
def textOf (position : Html.Position) : String :=
  .ofList (Text.collapse position.fullText)

/-- The answer to a question about one element. -/
def aboutElement {α : Type} (p : Page) (h : Handle) (f : Nat → Html.Position → α) :
    Except Fault α :=
  (p.inspect h).map fun (index, position) => f index position

/-- The answer to a question about the page as a whole. -/
def aboutPage (p : Page) (what : String) (value : String) : Except Fault String :=
  match p.pageFault with
  | some kind => .error (injected kind ("reading " ++ what))
  | none => .ok value

def answer (p : Page) : (q : Question) → Except Fault q.Value
  | .elements scope => (selector scope).map p.matching
  | .descendants parent scope =>
    match p.inspect parent with
    | .error e => .error e
    | .ok (index, position) => (selector scope).map (p.matchingBelow index position)
  | .attribute e name =>
    p.aboutElement e fun _ position => position.element.attribute? (Text.lowercaseAscii name)
  | .tagName e => p.aboutElement e fun _ position => Text.lowercaseAscii position.element.name
  | .text e => p.aboutElement e fun _ position => textOf position
  | .size e => p.aboutElement e fun index _ => (p.boxes.lookup index).elim ⟨0, 0⟩ (·.size)
  | .location e => p.aboutElement e fun index _ => (p.boxes.lookup index).elim ⟨0, 0⟩ (·.location)
  | .displayed e => p.aboutElement e fun _ position => position.isRendered
  | .enabled e => p.aboutElement e fun _ position => !position.element.hasAttribute "disabled"
  | .exists e => p.aboutElement e fun _ _ => true
  | .selected e =>
    p.aboutElement e fun _ position =>
      position.element.hasAttribute "selected" || position.element.hasAttribute "checked"
  | .visible e => p.aboutElement e fun _ position => position.isShown
  | .title => p.aboutPage "title" (.ofList (Text.collapse p.document.title))
  | .currentUrl => p.aboutPage "current URL" p.url

/-- The page as an oracle. Every question counts as one call, whatever its answer. -/
def oracle : Oracle Page where
  answer q p := (p.answer q, { p with calls := p.calls + 1 })

/-! ### Views -/

/-- The handles of all elements that are attached, in document order. -/
def handles (p : Page) : List Handle :=
  (p.attached fun _ => true).map fun a => p.handle a.1

/-- The handle of the first element whose `id` is the one given, attached or not. -/
def byId (p : Page) (id : String) : Option Handle :=
  (p.document.positions.findIdx? fun position => position.element.id? == some id).map p.handle

/-- A summary for whoever looks for mistakes. -/
def summary (p : Page) : String :=
  "MemoryOracle \x7b url: " ++ Text.quoted p.url ++ ", generation: " ++ toString p.generation ++
    ", calls: " ++ toString p.calls ++ " \x7d"

/-! ### Changes -/

/-- Gives an element a box. A handle of another generation changes nothing. -/
def place (p : Page) (h : Handle) (box : Box) : Page :=
  match p.currentIndex h with
  | some index => { p with boxes := (index, box) :: p.boxes }
  | none => p

/-- Gives an element a fault, with which it answers from now on. -/
def failElement (p : Page) (h : Handle) (kind : FaultKind) : Page :=
  match p.currentIndex h with
  | some index => { p with faults := (index, kind) :: p.faults }
  | none => p

/-- Gives the page a fault, or takes it away. -/
def failPage (p : Page) (kind : Option FaultKind) : Page :=
  { p with pageFault := kind }

/-- Takes out an element with everything beneath it. -/
def detach (p : Page) (h : Handle) : Page :=
  match p.currentIndex h with
  | some index =>
    match p.positions[index]? with
    | some position => { p with detached := List.range' index position.count ++ p.detached }
    | none => p
  | none => p

/-- Loads another document. All handles issued before go stale. -/
def navigate (p : Page) (url source : String) : Page :=
  { p with
    document := .parse source
    url := url
    generation := p.generation + 1
    detached := []
    boxes := []
    faults := [] }

end Page

end PageLogic
