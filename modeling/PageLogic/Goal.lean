import PageLogic.Pull
import PageLogic.Scope
/-!
Goals: what a query asks for, as a function from a branch to a search.

A goal is applied in a context, which holds the scopes in effect. Conjunction continues every
branch of its first part with the second; disjunction is depth first, all answers of its first part
before those of the second. `Goal.run` collects the answers for one variable.
-/
namespace PageLogic

/-- What a goal reads besides the branch. -/
structure Context where
  scope : Scope
  deriving DecidableEq, Repr

abbrev Goal := Context → Branch → Search

namespace Goal

def succeed : Goal := fun _ b => .unit b

def fail : Goal := fun _ _ => .done

/-- The two terms stand for the same. -/
def eq (t u : Term) : Goal := fun _ b => .ofOption (b.unify t u)

def conj (g h : Goal) : Goal := fun c b => (g c b).bind (h c)

/-- The second goal is applied when the first has no more answers. -/
def disj (g h : Goal) : Goal := fun c b => (g c b).append (.delay fun _ => h c b)

/-- All goals, joined from the left. -/
def conjAll : List Goal → Goal
  | [] => succeed
  | g :: rest => rest.foldl conj g

/-- Any of the goals, joined from the right. -/
def disjAll : List Goal → Goal
  | [] => fail
  | [g] => g
  | g :: rest => disj g (disjAll rest)

/-- Applies the goal made from a variable that is new to the branch. -/
def fresh (f : Term → Goal) : Goal := fun c b =>
  let (x, b) := b.fresh
  f (.var x) c b

/-- As `fresh`, with two variables. -/
def fresh2 (f : Term → Term → Goal) : Goal :=
  fresh fun t => fresh fun u => f t u

/-- The first item of the goal only. -/
def once (g : Goal) : Goal := fun c b => (g c b).first

/-- One answer for each value that unifies with the term, in order. -/
def memberOf (t : Term) (values : List Term) : Goal := fun _ b =>
  .each (fun value => .ofOption (b.unify t value)) values

/-- Puts off applying the goal until the first pull. -/
def later (g : Goal) : Goal := fun c b => .delay fun _ => g c b

/-- Runs the goal with the scopes overridden for all that it enumerates. -/
def withScope (o : Scope.Override) (g : Goal) : Goal := fun c b =>
  g { c with scope := c.scope.overridden o } b

variable {σ : Type}

/-- Applies the goal to a branch that knows nothing; the variables below `supply` are in use. -/
def solve (c : Context) (supply : Nat) (g : Goal) (w : World σ) : Search × World σ :=
  (g c (.start supply)).settle w

/-- The answers so far, the newest first, and how many more are wanted. -/
structure Collected where
  answers : List Term
  wanted : Option Nat

/-- Collects an answer; a failure ends the collection. -/
def collect (q : Term) (sofar : Except Error Collected) (item : Item) :
    Search.Visit (Except Error Collected) :=
  match sofar, item with
  | .error e, _ => .enough (.error e)
  | .ok _, .error e => .enough (.error e)
  | .ok ⟨answers, wanted⟩, .ok b =>
    let answers := b.reify q :: answers
    match wanted with
    | none => .more (.ok ⟨answers, none⟩)
    | some n =>
      if n ≤ 1 then .enough (.ok ⟨answers, some 0⟩) else .more (.ok ⟨answers, some (n - 1)⟩)

/-- At most `limit` answers for the variable that `goal` is made from, each reified; all of them
without a limit. The first failure ends the run, and a run that wants no answers pulls nothing. -/
def run (o : Oracle σ) (c : Context) (limit : Option Nat) (supply : Nat) (goal : Term → Goal)
    (w : World σ) : Except Error (List Term) × World σ :=
  let q := Term.var ⟨supply⟩
  let (search, w) := solve c (supply + 1) (goal q) w
  if limit = some 0 then (.ok [], w)
  else
    let (seen, w) := search.visit o (collect q) (.ok ⟨[], limit⟩) w
    (seen.value.map fun collected => collected.answers.reverse, w)

end Goal

end PageLogic
