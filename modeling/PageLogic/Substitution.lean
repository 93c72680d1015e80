import PageLogic.Term
/-!
Substitutions: what a branch of a search knows about its variables.

A substitution is a list of bindings, the newest first, and the newest binding of a variable is the
one that counts. Following bindings never enters the same binding twice on one path, so `walk`,
`resolve` and `occurs` end on every substitution. On an acyclic one the restriction is never felt.
-/
namespace PageLogic

/-- Bindings of variables, the newest first. -/
structure Substitution where
  bindings : List (Var × Term)
  deriving DecidableEq, Repr

namespace Substitution

def empty : Substitution := ⟨[]⟩

/-- Number of bindings made so far. -/
def length (s : Substitution) : Nat :=
  s.bindings.length

def isEmpty (s : Substitution) : Bool :=
  s.bindings.isEmpty

/-- The newest binding of a variable. -/
def lookup (s : Substitution) (x : Var) : Option Term :=
  s.bindings.lookup x

/-- Forgets every binding of a variable. -/
def without (s : Substitution) (x : Var) : Substitution :=
  ⟨s.bindings.filter fun b => b.1 != x⟩

/-- Adds a binding without looking at it. -/
def push (s : Substitution) (x : Var) (t : Term) : Substitution :=
  ⟨(x, t) :: s.bindings⟩

theorem length_without_lt {s : Substitution} {x : Var} {t : Term} (h : s.lookup x = some t) :
    (s.without x).length < s.length := by
  obtain ⟨bindings⟩ := s
  simp only [lookup, length, without] at h ⊢
  induction bindings with
  | nil => simp at h
  | cons b rest ih =>
    obtain ⟨y, u⟩ := b
    by_cases hy : x = y
    · subst hy
      simpa using Nat.lt_succ_of_le (List.length_filter_le _ rest)
    · have hne : (x == y) = false := by simpa using hy
      have hkeep : (y != x) = true := by simpa using Ne.symm hy
      rw [List.lookup_cons, hne] at h
      simpa [List.filter_cons, hkeep] using ih h

/-- Follows bindings from a variable until a term that is no variable, or an unbound variable. -/
def walk (s : Substitution) : Term → Term
  | .var x =>
    match _h : s.lookup x with
    | some t => walk (s.without x) t
    | none => .var x
  | t => t
termination_by s.length
decreasing_by exact length_without_lt _h

mutual

/-- Replaces every bound variable, in records and lists too, by what it stands for. -/
def resolve (s : Substitution) : Term → Term
  | .var x =>
    match _h : s.lookup x with
    | some t => resolve (s.without x) t
    | none => .var x
  | .record fields => .record (resolveFields s fields)
  | .list items => .list (resolveAll s items)
  | t => t
termination_by t => (s.length, sizeOf t)
decreasing_by
  · exact Prod.Lex.left _ _ (length_without_lt _h)
  all_goals exact Prod.Lex.right _ (by simp)

def resolveFields (s : Substitution) : List (String × Term) → List (String × Term)
  | [] => []
  | (k, t) :: rest => (k, resolve s t) :: resolveFields s rest
termination_by fields => (s.length, sizeOf fields)
decreasing_by
  all_goals
    exact Prod.Lex.right _ (by simp only [List.cons.sizeOf_spec, Prod.mk.sizeOf_spec]; omega)

def resolveAll (s : Substitution) : List Term → List Term
  | [] => []
  | t :: rest => resolve s t :: resolveAll s rest
termination_by items => (s.length, sizeOf items)
decreasing_by all_goals exact Prod.Lex.right _ (by simp only [List.cons.sizeOf_spec]; omega)

end

mutual

/-- Whether an unbound variable occurs in what the term stands for. -/
def occurs (s : Substitution) (x : Var) : Term → Bool
  | .var y =>
    match _h : s.lookup y with
    | some t => occurs (s.without y) x t
    | none => y == x
  | .record fields => occursFields s x fields
  | .list items => occursAny s x items
  | _ => false
termination_by t => (s.length, sizeOf t)
decreasing_by
  · exact Prod.Lex.left _ _ (length_without_lt _h)
  all_goals exact Prod.Lex.right _ (by simp)

def occursFields (s : Substitution) (x : Var) : List (String × Term) → Bool
  | [] => false
  | (_, t) :: rest => occurs s x t || occursFields s x rest
termination_by fields => (s.length, sizeOf fields)
decreasing_by
  all_goals
    exact Prod.Lex.right _ (by simp only [List.cons.sizeOf_spec, Prod.mk.sizeOf_spec]; omega)

def occursAny (s : Substitution) (x : Var) : List Term → Bool
  | [] => false
  | t :: rest => occurs s x t || occursAny s x rest
termination_by items => (s.length, sizeOf items)
decreasing_by all_goals exact Prod.Lex.right _ (by simp only [List.cons.sizeOf_spec]; omega)

end

/-- Binds a variable, unless it occurs in what the term stands for. -/
def extend (s : Substitution) (x : Var) (t : Term) : Option Substitution :=
  if s.occurs x t then none else some (s.push x t)

/-- How an attempt to unify two terms ended. -/
inductive Attempt where
  | unified (s : Substitution)
  | clash
  /-- The terms go deeper than the attempt was allowed to look. -/
  | tooDeep

namespace Attempt

def ofOption : Option Substitution → Attempt
  | some s => .unified s
  | none => .clash

def andThen : Attempt → (Substitution → Attempt) → Attempt
  | .unified s, f => f s
  | .clash, _ => .clash
  | .tooDeep, _ => .tooDeep

def toOption : Attempt → Option Substitution
  | .unified s => some s
  | _ => none

end Attempt

/-- Unifies the items of two lists from left to right; lists of different length clash. -/
def unifyAll (step : Substitution → Term → Term → Attempt) (s : Substitution) :
    List Term → List Term → Attempt
  | [], [] => .unified s
  | t :: ts, u :: us => (step s t u).andThen fun s => unifyAll step s ts us
  | _, _ => .clash

/-- Unifies the fields of two records from left to right; records with different names, or the
same names in different order, clash. -/
def unifyFields (step : Substitution → Term → Term → Attempt) (s : Substitution) :
    List (String × Term) → List (String × Term) → Attempt
  | [], [] => .unified s
  | (k, t) :: fs, (l, u) :: gs =>
    if k = l then (step s t u).andThen fun s => unifyFields step s fs gs else .clash
  | _, _ => .clash

/-- Unifies two terms, looking at most `depth` records and lists deep. -/
def unifyWithin : (depth : Nat) → Substitution → Term → Term → Attempt
  | 0, _, _, _ => .tooDeep
  | depth + 1, s, t, u =>
    match s.walk t, s.walk u with
    | .var x, .var y => if x = y then .unified s else .ofOption (s.extend x (.var y))
    | .var x, u => .ofOption (s.extend x u)
    | t, .var y => .ofOption (s.extend y t)
    | .record fs, .record gs => unifyFields (unifyWithin depth) s fs gs
    | .list ts, .list us => unifyAll (unifyWithin depth) s ts us
    | t, u => if t = u then .unified s else .clash

/-- Number of nodes of all bound terms. -/
def weight (s : Substitution) : Nat :=
  s.bindings.foldr (fun b n => b.2.weight + n) 0

/-- A bound on the depth of what two terms stand for under any acyclic extension of the
substitution by subterms: a path enters every variable at most once, and between two variables it
stays inside one term. -/
def reach (s : Substitution) (t u : Term) : Nat :=
  let nodes := s.weight + t.weight + u.weight
  (s.length + nodes + 1) * (nodes + 1)

/-- The least extension under which the two terms stand for the same, if there is one. -/
def unify (s : Substitution) (t u : Term) : Option Substitution :=
  (unifyWithin (s.reach t u) s t u).toOption

/-- Whether the term stands for something that is no variable. -/
def isGrounded (s : Substitution) (t : Term) : Bool :=
  !(s.walk t).isVar

/-- What the term stands for, with the variables that are left numbered in order. -/
def reify (s : Substitution) (t : Term) : Term :=
  (s.resolve t).numbered

@[simp] theorem length_empty : empty.length = 0 := rfl

@[simp] theorem length_push (s : Substitution) (x : Var) (t : Term) :
    (s.push x t).length = s.length + 1 := rfl

@[simp] theorem lookup_empty (x : Var) : empty.lookup x = none := rfl

theorem lookup_push (s : Substitution) (x y : Var) (t : Term) :
    (s.push x t).lookup y = if y = x then some t else s.lookup y := by
  by_cases h : y = x
  · simp [push, lookup, h]
  · have hne : (y == x) = false := by simpa using h
    simp [push, lookup, List.lookup_cons, hne, h]

end Substitution

end PageLogic
