import PageLogic.Relation.Property
/-!
The relation between an element and what lies beneath it in the child scope. With the scope that
admits everything these are all descendants, not only the nearest.
-/
namespace PageLogic.Relation

/-- Asks for the elements beneath a parent in the child scope. -/
def beneath (c : Context) (parent : Handle) (f : List Handle → Search) : Search :=
  .ask (.descendants parent c.scope.child) (onAnswer f)

/-- One answer for each element beneath a known parent that unifies with the child. -/
def bindBeneath (c : Context) (child : Term) (parent : Handle) (b : Branch) : Search :=
  beneath c parent (.each fun e => .ofOption (b.unify child (.element e)))

/-- `child` lies beneath `parent`. With the parent unknown, every element of the root scope is a
candidate. -/
def childOf (child parent : Term) : Goal := fun c b =>
  .delay fun _ =>
    match Binding.of b.substitution child, Binding.of b.substitution parent with
    | .grounded (.element e), .grounded (.element p) =>
      beneath c p fun below => if e ∈ below then .unit b else .done
    | .fresh, .grounded (.element p) => bindBeneath c child p b
    | .grounded (.element _), .fresh | .fresh, .fresh => eachCandidate c fun p =>
      match b.unify parent (.element p) with
      | some b => bindBeneath c child p b
      | none => .done
    | _, _ => .done

end PageLogic.Relation
