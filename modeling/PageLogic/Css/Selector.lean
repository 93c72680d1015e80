import PageLogic.Css.Component
import PageLogic.Html.Position
import PageLogic.Text.Lowercase
/-!
Selectors: conditions on an element and on what stands above and before it.

`Complex.matches` is the meaning of a selector: the element satisfies the last compound, and some
element that the combinator leads to satisfies what is written in front.
-/
namespace PageLogic.Css

open Html (Position Element)

/-- How a value is compared with what a selector says. -/
inductive Comparison where
  | equal
  /-- Equal to one of the words. -/
  | word
  /-- Equal, or equal up to a hyphen. -/
  | subtag
  | start
  | finish
  | anywhere
  deriving DecidableEq, Repr

/-- Whether ASCII letters of different case are the same. -/
inductive LetterCase where
  | exact
  | folded
  /-- Folded for elements of the page's own vocabulary, exact for others. -/
  | foldedInHtml
  deriving DecidableEq, Repr

structure AttributeTest where
  name : String
  /-- Whether attributes of every vocabulary count. -/
  anySpace : Bool
  /-- What the value has to be like; nothing if the attribute has only to be there. -/
  value : Option (Comparison × String × LetterCase)
  deriving DecidableEq, Repr

/-- Which of its siblings an element is: the condition is that its number, counted from one, is
`step * n + offset` for some natural number `n`. -/
structure Ordinal where
  step : Int
  offset : Int
  /-- Whether only siblings of the same name count. -/
  ofType : Bool
  fromEnd : Bool
  deriving DecidableEq, Repr

inductive Combinator where
  /-- Below the element in front. -/
  | descendant
  /-- Immediately below. -/
  | child
  /-- The next sibling. -/
  | next
  /-- A later sibling. -/
  | later
  deriving DecidableEq, Repr

mutual

/-- One condition on one element. -/
inductive Simple where
  | universal
  /-- Elements without vocabulary; a page has none. -/
  | unspaced
  | tag (name : String)
  | id (name : String)
  | className (name : String)
  | attribute (test : AttributeTest)
  | outermost
  | empty
  /-- The element that the selection starts from. -/
  | scope
  | ordinal (o : Ordinal)
  /-- None of the alternatives. -/
  | none (alternatives : List Complex)
  /-- The host of a shadow tree; a page has none. -/
  | host

/-- Compounds, which are lists of conditions on one element, joined by combinators. -/
inductive Complex where
  | compound (tests : List Simple)
  | joined (left : Complex) (combinator : Combinator) (tests : List Simple)

end

/-- A selector: its alternatives. -/
structure Selector where
  alternatives : List Complex

namespace Comparison

/-- Whether a value compares as it should. -/
def holds (c : Comparison) (expected value : List Char) : Bool :=
  match c with
  | .equal => value == expected
  | .word => (Text.pieces isSpace value).contains expected
  | .subtag => value == expected || (Text.after? (expected ++ ['-']) value).isSome
  | .start => (Text.after? expected value).isSome
  | .finish => (Text.after? expected.reverse value.reverse).isSome
  | .anywhere => Text.occursIn expected value

end Comparison

namespace LetterCase

/-- Brings a text into the form in which it is compared. -/
def fold (c : LetterCase) (inHtml : Bool) (cs : List Char) : List Char :=
  match c with
  | .exact => cs
  | .folded => cs.map Char.toLower
  | .foldedInHtml => if inHtml then cs.map Char.toLower else cs

end LetterCase

/-- A name in a selector as it is compared with names of an element: elements of the page's own
vocabulary have lower case names. -/
def nameFor (e : Element) (name : String) : String :=
  if e.space = .html then Text.lowercaseAscii name else name

namespace AttributeTest

def holds (t : AttributeTest) (e : Element) : Bool :=
  e.attributes.any fun a =>
    (t.anySpace || a.space == .none) && a.name == nameFor e t.name &&
      match t.value with
      | .none => true
      | .some (comparison, expected, letterCase) =>
        let fold := letterCase.fold (e.space == .html)
        comparison.holds (fold expected.toList) (fold a.value.toList)

end AttributeTest

namespace Ordinal

/-- Whether a number is `step * n + offset` for some natural number `n`. Differences beyond 32 bits
are no numbers that an element can have. -/
def admits (o : Ordinal) (number : Nat) : Bool :=
  let distance := (number : Int) - o.offset
  if distance > 2147483647 then false
  else if o.step = 0 then distance == 0
  else distance.tmod o.step == 0 && distance.tdiv o.step ≥ 0

/-- The number of the element among its siblings. -/
def number (o : Ordinal) (p : Position) : Nat :=
  let e := p.element
  let counts := fun (f : Element) => !o.ofType || (f.space == e.space && f.name == e.name)
  let others := if o.fromEnd then p.elementsAfter else p.elementsBefore.map Position.element
  others.countP counts + 1

def holds (o : Ordinal) (p : Position) : Bool :=
  o.admits (o.number p)

end Ordinal

/-- The elements that a combinator leads to. -/
def Combinator.lead (c : Combinator) (p : Position) : List Position :=
  match c with
  | .descendant => p.ancestors
  | .child => p.ancestors.take 1
  | .next => p.elementsBefore.take 1
  | .later => p.elementsBefore

/-- The classes of an element. -/
def classes (e : Element) : List (List Char) :=
  (e.attributes.filter (·.name == "class")).flatMap fun a => Text.words a.value.toList

mutual

/-- Whether an element satisfies a condition; `start` is the element that the selection starts
from, if it starts from one. -/
def Simple.holds (start : Option Element) : Simple → Position → Bool
  | .universal, _ => true
  | .unspaced, _ => false
  | .tag name, p => p.element.name == nameFor p.element name
  | .id name, p => p.element.id? == some name
  | .className name, p => (classes p.element).contains name.toList
  | .attribute test, p => test.holds p.element
  | .outermost, p => p.isOutermost
  | .empty, p => p.isEmpty
  | .scope, p =>
    match start with
    | some e => p.element.birth == e.birth
    | none => p.isOutermost
  | .ordinal o, p => o.holds p
  | .none alternatives, p => !Complex.anyMatches start alternatives p
  | .host, _ => false

def Simple.allHold (start : Option Element) : List Simple → Position → Bool
  | [], _ => true
  | t :: rest, p => t.holds start p && Simple.allHold start rest p

def Complex.matches (start : Option Element) : Complex → Position → Bool
  | .compound tests, p => Simple.allHold start tests p
  | .joined left combinator tests, p =>
    Simple.allHold start tests p && (combinator.lead p).any fun q => left.matches start q

def Complex.anyMatches (start : Option Element) : List Complex → Position → Bool
  | [], _ => false
  | c :: rest, p => c.matches start p || Complex.anyMatches start rest p

end

def Selector.matches (s : Selector) (start : Option Element) (p : Position) : Bool :=
  Complex.anyMatches start s.alternatives p

end PageLogic.Css
