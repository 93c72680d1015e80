import PageLogic.Search
/-!
Pulling: how a search meets an oracle.

`Search.settle` leaves the marks that a search owes as soon as it exists, `Search.pull` delivers
the next item, and `Search.visit` looks at one item after the other until its visitor has seen
enough.
-/
namespace PageLogic

/-- The oracle's state, and the marks that searches have left so far, the newest first. -/
structure World (σ : Type) where
  state : σ
  marks : List Mark

namespace World

def of {σ : Type} (state : σ) : World σ := ⟨state, []⟩

def mark {σ : Type} (w : World σ) (m : Mark) : World σ :=
  { w with marks := m :: w.marks }

end World

/-- How many parts of an endless supply a pull looks through before it gives up. Searches that end
by themselves never come to the limit. -/
def patience : Nat := 100000

/-- The outcome of one pull. -/
inductive Pulled where
  | item (i : Item) (rest : Search)
  | ended

namespace Search

variable {σ : Type}

/-- Leaves the marks that stand before the first item, question or delay. -/
def settle : Search → World σ → Search × World σ
  | .note m rest, w => settle rest (w.mark m)
  | s, w => (s, w)

/-- Looks through parts numbered from `n` on until one delivers. -/
def pullParts (pullPart : Nat → World σ → Pulled × World σ) :
    (limit n : Nat) → World σ → Option (Item × Search × Nat) × World σ
  | 0, _, w => (none, w)
  | limit + 1, n, w =>
    match pullPart n w with
    | (.item i rest, w) => (some (i, rest, n), w)
    | (.ended, w) => pullParts pullPart limit (n + 1) w

/-- The next item and what is left after it, if at most `limit` parts of an endless supply are
looked through. -/
def pullWithin (limit : Nat) (o : Oracle σ) : Search → World σ → Pulled × World σ
  | .done, w => (.ended, w)
  | .emit item rest, w => (.item item rest, w)
  | .note m rest, w => pullWithin limit o rest (w.mark m)
  | .delay rest, w => pullWithin limit o (rest ()) w
  | .ask q next, w =>
    let (r, state) := o.answer q w.state
    pullWithin limit o (next r) { w with state }
  | .forever part start, w =>
    match pullParts (fun n w => pullWithin limit o (part n) w) limit start w with
    | (some (i, rest, n), w) => (.item i (rest.append (.forever part (n + 1))), w)
    | (none, w) => (.ended, w)
  | .seek part start next, w =>
    match pullParts (fun n w => pullWithin limit o (part n) w) limit start w with
    | (some (i, _, _), w) => pullWithin limit o (next i) w
    | (none, w) => (.ended, w)

/-- The next item and what is left after it. -/
def pull (o : Oracle σ) (s : Search) (w : World σ) : Pulled × World σ :=
  s.pullWithin patience o w

/-- Whether a visitor wants to see more items. -/
inductive Visit (α : Type) where
  | more (a : α)
  | enough (a : α)

def Visit.value {α : Type} : Visit α → α
  | .more a => a
  | .enough a => a

/-- Visits parts numbered from `n` on until the visitor has seen enough. -/
def visitParts {α : Type} (visitPart : Nat → α → World σ → Visit α × World σ) :
    (limit n : Nat) → α → World σ → Visit α × World σ
  | 0, _, a, w => (.more a, w)
  | limit + 1, n, a, w =>
    match visitPart n a w with
    | (.more a, w) => visitParts visitPart limit (n + 1) a w
    | (.enough a, w) => (.enough a, w)

/-- Shows the visitor every item in order until it has seen enough, if at most `limit` parts of an
endless supply are looked through. -/
def visitWithin {α : Type} (limit : Nat) (o : Oracle σ) (f : α → Item → Visit α) :
    Search → α → World σ → Visit α × World σ
  | .done, a, w => (.more a, w)
  | .emit item rest, a, w =>
    match f a item with
    | .more a => visitWithin limit o f rest a w
    | .enough a => (.enough a, w)
  | .note m rest, a, w => visitWithin limit o f rest a (w.mark m)
  | .delay rest, a, w => visitWithin limit o f (rest ()) a w
  | .ask q next, a, w =>
    let (r, state) := o.answer q w.state
    visitWithin limit o f (next r) a { w with state }
  | .forever part start, a, w =>
    visitParts (fun n a w => visitWithin limit o f (part n) a w) limit start a w
  | .seek part start next, a, w =>
    match pullParts (fun n w => pullWithin limit o (part n) w) limit start w with
    | (some (i, _, _), w) => visitWithin limit o f (next i) a w
    | (none, w) => (.more a, w)

/-- Shows the visitor every item in order until it has seen enough. -/
def visit {α : Type} (o : Oracle σ) (f : α → Item → Visit α) (s : Search) (a : α) (w : World σ) :
    Visit α × World σ :=
  s.visitWithin patience o f a w

end Search

end PageLogic
