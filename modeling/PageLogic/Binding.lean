import PageLogic.Substitution
/-!
Whether an argument of a relation is known yet. The answer belongs to one substitution and is
computed anew wherever it is needed.
-/
namespace PageLogic

inductive Binding where
  /-- The argument stands for this term, which is no variable. -/
  | grounded (t : Term)
  | fresh
  deriving DecidableEq, Repr

def Binding.of (s : Substitution) (t : Term) : Binding :=
  match s.walk t with
  | .var _ => .fresh
  | t => .grounded t

end PageLogic
