import PageLogic.Question
import PageLogic.Substitution
/-!
Searches: lazy sequences of branches, pulled one at a time.

A search is a tree of what remains to be done. Its finite parts end by themselves; an endless
supply from outside is kept as the function that makes its parts, so that joining and continuing
searches are functions on trees, and their laws are equations between trees. Nothing is asked
before a pull reaches the question.
-/
namespace PageLogic

/-- One path of a search: what it knows, and the number of the next unused variable. -/
structure Branch where
  substitution : Substitution
  supply : Nat
  deriving DecidableEq, Repr

namespace Branch

/-- A path that knows nothing, on which the variables below `supply` are in use. -/
def start (supply : Nat) : Branch := ⟨.empty, supply⟩

/-- A variable that the path has not used, and the path that has used it. -/
def fresh (b : Branch) : Var × Branch :=
  (⟨b.supply⟩, { b with supply := b.supply + 1 })

/-- The path on which the two terms stand for the same, if there is one. -/
def unify (b : Branch) (t u : Term) : Option Branch :=
  (b.substitution.unify t u).map fun s => { b with substitution := s }

def reify (b : Branch) (t : Term) : Term :=
  b.substitution.reify t

end Branch

/-- What a pull delivers: a branch or a failure. A failure does not end the search. -/
abbrev Item := Except Error Branch

/-- A note that a search leaves in passing, for whoever watches the order of evaluation. -/
inductive Mark where
  /-- A goal was applied. -/
  | applied (name : String)
  /-- An item was pulled from a watched supply. -/
  | pulled (name : String)
  deriving DecidableEq, Repr

inductive Search where
  | done
  | emit (item : Item) (rest : Search)
  /-- Leaves a mark and goes on. -/
  | note (mark : Mark) (rest : Search)
  /-- Work that is done only when it is pulled. -/
  | delay (rest : Unit → Search)
  /-- One question to the oracle. -/
  | ask (q : Question) (next : Except Fault q.Value → Search)
  /-- The parts numbered `start`, `start + 1`, … one after the other, without end. -/
  | forever (part : Nat → Search) (start : Nat)
  /-- The first item among the parts numbered `start`, `start + 1`, …, and what follows it. -/
  | seek (part : Nat → Search) (start : Nat) (next : Item → Search)

namespace Search

def unit (b : Branch) : Search :=
  .emit (.ok b) .done

def failure (e : Error) : Search :=
  .emit (.error e) .done

/-- At most one branch. -/
def ofOption : Option Branch → Search
  | some b => unit b
  | none => .done

/-- Every item of the first search, then every item of the second. -/
def append : Search → Search → Search
  | .done, t => t
  | .emit item rest, t => .emit item (append rest t)
  | .note m rest, t => .note m (append rest t)
  | .delay rest, t => .delay fun u => append (rest u) t
  | .ask q next, t => .ask q fun r => append (next r) t
  | .forever part start, _ => .forever part start
  | .seek part start next, t => .seek part start fun item => append (next item) t

/-- Continues every branch with `f`, in order; failures pass through in their places. -/
def bind : Search → (Branch → Search) → Search
  | .done, _ => .done
  | .emit (.ok b) rest, f => .delay fun _ => append (f b) (bind rest f)
  | .emit (.error e) rest, f => .emit (.error e) (bind rest f)
  | .note m rest, f => .note m (bind rest f)
  | .delay rest, f => .delay fun u => bind (rest u) f
  | .ask q next, f => .ask q fun r => bind (next r) f
  | .forever part start, f => .forever (fun n => bind (part n) f) start
  | .seek part start next, f => .seek part start fun item => bind (next item) f

/-- The first item only. -/
def first : Search → Search
  | .done => .done
  | .emit item _ => .emit item .done
  | .note m rest => .note m (first rest)
  | .delay rest => .delay fun u => first (rest u)
  | .ask q next => .ask q fun r => first (next r)
  | .forever part start => .seek part start fun item => .emit item .done
  | .seek part start next => .seek part start fun item => first (next item)

/-- The searches of a list, one after the other, each begun when it is reached. -/
def each {α : Type} (f : α → Search) : List α → Search
  | [] => .done
  | a :: rest => .delay fun _ => append (f a) (each f rest)

/-- Carries out a reading as part of a search. -/
def read {α : Type} : Reading α → (Except Fault α → Search) → Search
  | .value a, f => f (.ok a)
  | .fault e, f => f (.error e)
  | .ask q next, f => .ask q fun r => read (next r) f

@[simp] theorem append_done (s : Search) : s.append .done = s := by
  induction s with
  | done => rfl
  | emit item rest ih => simp [append, ih]
  | note m rest ih => simp [append, ih]
  | delay rest ih => simp [append, ih]
  | ask q next ih => simp [append, ih]
  | forever part start => rfl
  | seek part start next _ ih => simp [append, ih]

theorem append_assoc (s t u : Search) : (s.append t).append u = s.append (t.append u) := by
  induction s with
  | done => rfl
  | emit item rest ih => simp [append, ih]
  | note m rest ih => simp [append, ih]
  | delay rest ih => simp [append, ih]
  | ask q next ih => simp [append, ih]
  | forever part start => rfl
  | seek part start next _ ih => simp [append, ih]

theorem bind_append (s t : Search) (f : Branch → Search) :
    (s.append t).bind f = (s.bind f).append (t.bind f) := by
  induction s with
  | done => rfl
  | emit item rest ih =>
    cases item with
    | ok b => simp [append, bind, ih, append_assoc]
    | error e => simp [append, bind, ih]
  | note m rest ih => simp [append, bind, ih]
  | delay rest ih => simp [append, bind, ih]
  | ask q next ih => simp [append, bind, ih]
  | forever part start => rfl
  | seek part start next _ ih => simp [append, bind, ih]

theorem bind_assoc (s : Search) (f g : Branch → Search) :
    (s.bind f).bind g = s.bind fun b => (f b).bind g := by
  induction s with
  | done => rfl
  | emit item rest ih =>
    cases item with
    | ok b => simp [bind, bind_append, ih]
    | error e => simp [bind, ih]
  | note m rest ih => simp [bind, ih]
  | delay rest ih => simp [bind, ih]
  | ask q next ih => simp [bind, ih]
  | forever part start ih => simp [bind, ih]
  | seek part start next _ ih => simp [bind, ih]

end Search

end PageLogic
