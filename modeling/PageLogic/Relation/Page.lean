import PageLogic.Relation.Property
/-!
Facts about the page as a whole. Each holds for exactly one value at a time.
-/
namespace PageLogic.Relation

/-- The value is what one question about the page answers. -/
def pageFact (read : Reading String) (value : Term) : Goal := fun _ b =>
  .delay fun _ =>
    .read read (onAnswer fun actual => .ofOption (b.unify value (.str actual)))

def title : Term → Goal := pageFact (.of .title id)

def currentUrl : Term → Goal := pageFact (.of .currentUrl id)

end PageLogic.Relation
