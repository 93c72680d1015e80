import PageLogic.Relation.Property
/-!
Checks on goals and relations. Every check runs the search for real, so a fault that ends a search
is the outcome of the check too.
-/
namespace PageLogic.Check

variable {σ : Type}

/-- The goal has an answer. -/
def holds (o : Oracle σ) (c : Context) (supply : Nat) (g : Goal) (w : World σ) :
    Except Error Bool × World σ :=
  let (search, w) := g.solve c supply w
  match search.pull o w with
  | (.item (.ok _) _, w) => (.ok true, w)
  | (.item (.error e) _, w) => (.error e, w)
  | (.ended, w) => (.ok false, w)

/-- The goal has no answer. -/
def fails (o : Oracle σ) (c : Context) (supply : Nat) (g : Goal) (w : World σ) :
    Except Error Bool × World σ :=
  let (r, w) := holds o c supply g w
  (r.map (!·), w)

/-- Counts a branch; a failure ends the count. -/
def count (sofar : Except Error Nat) (item : Item) : Search.Visit (Except Error Nat) :=
  match sofar, item with
  | .error e, _ => .enough (.error e)
  | .ok _, .error e => .enough (.error e)
  | .ok n, .ok _ => .more (.ok (n + 1))

/-- How many answers the goal has. -/
def solutionCount (o : Oracle σ) (c : Context) (supply : Nat) (g : Goal) (w : World σ) :
    Except Error Nat × World σ :=
  let (search, w) := g.solve c supply w
  let (seen, w) := search.visit o count (.ok 0) w
  (seen.value, w)

/-- The only answer, or nothing if there are none or several. At most two are looked for. -/
def uniqueSolution (o : Oracle σ) (c : Context) (supply : Nat) (goal : Term → Goal)
    (w : World σ) : Except Error (Option Term) × World σ :=
  let (r, w) := Goal.run o c (some 2) supply goal w
  (r.map fun
    | [t] => some t
    | _ => none, w)

/-- Whether a relation that holds of `a` and `b` also finds `b` from `a`, and `a` from `b`. A
relation that does not hold of them agrees. -/
def modesAgree (o : Oracle σ) (c : Context) (supply : Nat) (rel : Term → Term → Goal)
    (a b : Term) (w : World σ) : Except Error Bool × World σ :=
  match holds o c supply (rel a b) w with
  | (.error e, w) => (.error e, w)
  | (.ok false, w) => (.ok true, w)
  | (.ok true, w) =>
    match Goal.run o c none supply (rel a) w with
    | (.error e, w) => (.error e, w)
    | (.ok forward, w) =>
      let (r, w) := Goal.run o c none supply (rel · b) w
      (r.map fun backward => decide (b ∈ forward ∧ a ∈ backward), w)

/-- Whether an element is present exactly if it exists and is displayed. -/
def presentAgrees (o : Oracle σ) (c : Context) (e : Handle) (w : World σ) :
    Except Error Bool × World σ :=
  match holds o c 0 (Relation.present (.element e)) w with
  | (.error e, w) => (.error e, w)
  | (.ok lhs, w) =>
    let both := (Relation.attached (.element e)).conj (Relation.displayed (.element e))
    let (r, w) := holds o c 0 both w
    (r.map fun rhs => lhs == rhs, w)

end PageLogic.Check
