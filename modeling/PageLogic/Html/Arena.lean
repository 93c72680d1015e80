import PageLogic.Html.Node
/-!
Documents under construction. Nodes are numbered in the order in which they are made, and are moved
freely until the document is finished; number zero is the document itself.
-/
namespace PageLogic.Html

/-- What a node under construction is. -/
inductive Content where
  | document
  | element (space : Space) (name : String) (attributes : List Attribute)
  | text (content : String)
  | comment (content : String)
  deriving DecidableEq, Repr

/-- A node under construction: what it is and where it hangs. -/
structure Growing where
  content : Content
  parent : Option Nat
  children : List Nat
  deriving DecidableEq, Repr

/-- All nodes made so far, by number. -/
structure Arena where
  nodes : Array Growing
  deriving Repr

namespace Arena

def empty : Arena := ⟨#[⟨.document, none, []⟩]⟩

def get? (a : Arena) (n : Nat) : Option Growing :=
  a.nodes[n]?

def content (a : Arena) (n : Nat) : Content :=
  (a.get? n).elim .document (·.content)

def parent? (a : Arena) (n : Nat) : Option Nat :=
  (a.get? n).bind (·.parent)

def children (a : Arena) (n : Nat) : List Nat :=
  (a.get? n).elim [] (·.children)

def update (a : Arena) (n : Nat) (f : Growing → Growing) : Arena :=
  ⟨a.nodes.modify n f⟩

/-- Makes a node that hangs nowhere; its number is the size of the arena before. -/
def make (a : Arena) (content : Content) : Nat × Arena :=
  (a.nodes.size, ⟨a.nodes.push ⟨content, none, []⟩⟩)

/-- Takes a node, with all below it, from where it hangs. -/
def detach (a : Arena) (n : Nat) : Arena :=
  match a.parent? n with
  | none => a
  | some p =>
    (a.update p fun g => { g with children := g.children.filter (· != n) }).update n fun g =>
      { g with parent := none }

/-- Hangs a node below another, as its last child. -/
def append (a : Arena) (p n : Nat) : Arena :=
  ((a.detach n).update p fun g => { g with children := g.children ++ [n] }).update n fun g =>
    { g with parent := some p }

/-- Hangs a node next to another, immediately before it; nothing happens if that other node hangs
nowhere. -/
def insertBefore (a : Arena) (sibling n : Nat) : Arena :=
  let a := a.detach n
  match a.parent? sibling with
  | none => a
  | some p =>
    let place (cs : List Nat) := cs.flatMap fun c => if c = sibling then [n, c] else [c]
    (a.update p fun g => { g with children := place g.children }).update n fun g =>
      { g with parent := some p }

/-- Adds to the text of a text node. -/
def extendText (a : Arena) (n : Nat) (text : String) : Arena :=
  a.update n fun g =>
    match g.content with
    | .text content => { g with content := .text (content ++ text) }
    | _ => g

def isText (a : Arena) (n : Nat) : Bool :=
  match a.content n with
  | .text _ => true
  | _ => false

/-- Adds text at the end of a node; it joins a text that is there. -/
def appendText (a : Arena) (p : Nat) (text : String) : Arena :=
  match (a.children p).getLast? with
  | some last =>
    if a.isText last then a.extendText last text
    else
      let (n, a) := a.make (.text text)
      a.append p n
  | none =>
    let (n, a) := a.make (.text text)
    a.append p n

/-- Adds text immediately before a node; it joins a text that is there. -/
def insertTextBefore (a : Arena) (sibling : Nat) (text : String) : Arena :=
  match a.parent? sibling with
  | none => a
  | some p =>
    match ((a.children p).takeWhile (· != sibling)).getLast? with
    | some previous =>
      if a.isText previous then a.extendText previous text
      else
        let (n, a) := a.make (.text text)
        a.insertBefore sibling n
    | none =>
      let (n, a) := a.make (.text text)
      a.insertBefore sibling n

/-- Moves all children of one node to the end of another. -/
def adopt (a : Arena) (source target : Nat) : Arena :=
  (a.children source).foldl (fun a c => a.append target c) a

/-- Adds the attributes whose names an element does not have yet. -/
def addMissing (a : Arena) (n : Nat) (attributes : List Attribute) : Arena :=
  a.update n fun g =>
    match g.content with
    | .element space name present =>
      let missing := attributes.filter fun b =>
        !present.any fun c => c.space == b.space && c.name == b.name
      { g with content := .element space name (present ++ missing) }
    | _ => g

/-- The finished tree below a node; `depth` bounds how deep it is. -/
def toNode? (a : Arena) : (depth : Nat) → Nat → Option Node
  | 0, _ => none
  | depth + 1, n =>
    match a.content n with
    | .document => none
    | .element space name attributes =>
      some (.element ⟨n, space, name, attributes⟩ ((a.children n).filterMap (toNode? a depth)))
    | .text content => some (.text content)
    | .comment content => some (.comment content)

/-- The elements that hang nowhere, in the order in which they were made. -/
def looseElements (a : Arena) : List Nat :=
  (List.range a.nodes.size).filter fun n =>
    match a.content n with
    | .element .. => (a.parent? n).isNone
    | _ => false

/-- The finished page: the first element that hangs at the document. -/
def toDocument (a : Arena) : Document :=
  let tree? := a.toNode? a.nodes.size
  let loose := a.looseElements.filterMap tree?
  let root? := ((a.children 0).filterMap tree?).findSome? fun
    | .element e children => some (Document.mk e children loose)
    | _ => none
  root?.getD ⟨⟨1, .html, "html", []⟩, [], loose⟩

end Arena

end PageLogic.Html
