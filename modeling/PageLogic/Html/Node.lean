/-!
Parsed documents: trees of elements, text and comments.

An element remembers when it was made. Selections of a whole document visit the elements in that
order, which differs from document order only where the source was mended by moving elements.
-/
namespace PageLogic.Html

/-- The vocabulary that an element belongs to. -/
inductive Space where
  | html
  | svg
  | mathml
  deriving DecidableEq, Repr

/-- The vocabulary of an attribute; attributes of a page mostly have none. -/
inductive AttributeSpace where
  | none
  | xlink
  | xml
  | xmlns
  deriving DecidableEq, Repr

structure Attribute where
  space : AttributeSpace
  name : String
  value : String
  deriving DecidableEq, Repr

/-- What an element says of itself. -/
structure Element where
  /-- Position in the order in which the nodes of the document were made. -/
  birth : Nat
  space : Space
  name : String
  attributes : List Attribute
  deriving DecidableEq, Repr

inductive Node where
  | element (e : Element) (children : List Node)
  | text (content : String)
  | comment (content : String)
  deriving Repr

/-- A whole page: its outermost element. -/
structure Document where
  root : Element
  children : List Node
  /-- Trees that were cut off while the source was mended. They belong to no element of the page,
  but a page takes its title from them too. -/
  loose : List Node
  deriving Repr

namespace Element

/-- The value of the attribute of that name that belongs to no vocabulary. -/
def attribute? (e : Element) (name : String) : Option String :=
  (e.attributes.find? fun a => a.space == .none && a.name == name).map (·.value)

def hasAttribute (e : Element) (name : String) : Bool :=
  (e.attribute? name).isSome

/-- The value of the first attribute named `id`. -/
def id? (e : Element) : Option String :=
  (e.attributes.find? fun a => a.name == "id").map (·.value)

end Element

mutual

/-- The text of all text nodes below, in document order. -/
def Node.fullText : Node → List Char
  | .element _ children => Node.textAll children
  | .text content => content.toList
  | .comment _ => []

def Node.textAll : List Node → List Char
  | [] => []
  | n :: rest => n.fullText ++ Node.textAll rest

end

mutual

/-- How many elements the tree has. -/
def Node.count : Node → Nat
  | .element _ children => Node.countAll children + 1
  | _ => 0

def Node.countAll : List Node → Nat
  | [] => 0
  | n :: rest => n.count + Node.countAll rest

end

mutual

/-- The `title` elements of a tree with their text, in document order. -/
def Node.titles : Node → List (Element × List Char)
  | .element e children =>
    let below := Node.titlesAll children
    if e.name = "title" then (e, Node.textAll children) :: below else below
  | _ => []

def Node.titlesAll : List Node → List (Element × List Char)
  | [] => []
  | n :: rest => n.titles ++ Node.titlesAll rest

end

def Node.children : Node → List Node
  | .element _ children => children
  | _ => []

/-- The oldest of several elements. -/
def oldest? : List (Element × List Char) → Option (Element × List Char)
  | [] => none
  | a :: rest =>
    match oldest? rest with
    | some b => if a.1.birth ≤ b.1.birth then some a else some b
    | none => some a

/-- The text of the oldest `title` element that hangs below another element, or the empty text. -/
def Document.title (d : Document) : List Char :=
  let titles := Node.titlesAll (d.children ++ d.loose.flatMap (·.children))
  (oldest? titles).elim [] (·.2)

end PageLogic.Html
