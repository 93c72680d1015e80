import PageLogic.Binding
import PageLogic.Goal
import PageLogic.Text.Lowercase
/-!
Relations between an element and one of its properties.

With the element known, a relation reads the property once and unifies it with the value, which
both tests a known value and binds an unknown one. With the element unknown, it does so for every
element of the root scope, in document order. A recognized fault reads as an absent property; any
other fault is an item of the search.
-/
namespace PageLogic.Relation

/-- Goes on with an answer; a recognized fault has no items, any other is the only item. -/
def onAnswer {α : Type} (f : α → Search) : Except Fault α → Search
  | .ok a => f a
  | .error e => if e.isRecognized then .done else .failure (.oracle e)

/-- Asks for the root scope and searches beneath each candidate. There is no candidate to blame
for a fault of this question, so every fault is an item. -/
def eachCandidate (c : Context) (f : Handle → Search) : Search :=
  .ask (.elements c.scope.root) fun
    | .ok candidates => .each f candidates
    | .error e => .failure (.oracle e)

/-- How a property of an element is read; `none` when the element lacks it. -/
abbrev Property := Handle → Reading (Option Term)

/-- Reads a property of a known element and unifies it with the value. -/
def resolve (property : Property) (e : Handle) (value : Term) (b : Branch) : Search :=
  .read (property e) (onAnswer fun
    | some actual => .ofOption (b.unify value actual)
    | none => .done)

/-- The relation between an element and the value of a property. -/
def ofProperty (property : Property) (element value : Term) : Goal := fun c b =>
  .delay fun _ =>
    match Binding.of b.substitution element with
    | .grounded (.element e) => resolve property e value b
    | .grounded _ => .done
    | .fresh => eachCandidate c fun e =>
      match b.unify element (.element e) with
      | some b => resolve property e value b
      | none => .done

/-- A property that every element has, read by one question. -/
def always (q : Handle → Question) (f : (e : Handle) → (q e).Value → Term) : Property := fun e =>
  .of (q e) fun a => some (f e a)

/-- The tag name of an element, in lower case. -/
def tag : Term → Term → Goal :=
  ofProperty (always .tagName fun _ (name : String) => .str (Text.lowercase name))

/-- The text of an element. -/
def text : Term → Term → Goal :=
  ofProperty (always .text fun _ (content : String) => .str content)

/-- Width and height of an element. A pattern may leave either to be found. -/
def size : Term → Term → Goal :=
  ofProperty (always .size fun _ (s : Size) => .ofSize s)

/-- Corner of an element. A pattern may leave either coordinate to be found. -/
def location : Term → Term → Goal :=
  ofProperty (always .location fun _ (l : Location) => .ofLocation l)

/-- The elements of which a reading says yes. -/
def holding (read : Handle → Reading Bool) (element : Term) : Goal :=
  ofProperty (fun e => (read e).map fun yes => some (.bool yes)) element (.bool true)

def displayed : Term → Goal := holding fun e => .of (.displayed e) id

def enabled : Term → Goal := holding fun e => .of (.enabled e) id

/-- Still part of the page. -/
def attached : Term → Goal := holding fun e => .of (.exists e) id

/-- Exists and is displayed. -/
def present : Term → Goal := holding .present

/-- A checked box or a chosen option. -/
def selected : Term → Goal := holding fun e => .of (.selected e) id

def visible : Term → Goal := holding fun e => .of (.visible e) id

end PageLogic.Relation
