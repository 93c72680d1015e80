import PageLogic.Relation.Property
import PageLogic.Relation.Vocabulary
/-!
The relation between an element, the name of an attribute and its value. An unknown name is sought
in the vocabulary, one question for each entry.
-/
namespace PageLogic.Relation

/-- Reads one attribute of a known element and unifies it with the value. -/
def named (e : Handle) (name : String) (value : Term) (b : Branch) : Search :=
  resolve (fun e => .of (.attribute e name) fun (a : Option String) => a.map .str) e value b

/-- One answer for each known attribute that the element carries, in the vocabulary's order. -/
def scanVocabulary (e : Handle) (name value : Term) (b : Branch) : Search :=
  .each (fun attr =>
    match b.unify name (.str attr) with
    | some b => named e attr value b
    | none => .done) knownAttributes

/-- The attribute on a known element, after what is known of its name. -/
def attributeOn (e : Handle) (binding : Binding) (name value : Term) (b : Branch) : Search :=
  match binding with
  | .grounded (.str n) => named e n value b
  | .grounded _ => .done
  | .fresh => scanVocabulary e name value b

/-- The element carries an attribute of that name with that value. -/
def carries (element name value : Term) : Goal := fun c b =>
  .delay fun _ =>
    let binding := Binding.of b.substitution name
    match binding, Binding.of b.substitution element with
    | .grounded (.str _), .grounded (.element e) | .fresh, .grounded (.element e) =>
      attributeOn e binding name value b
    | .grounded (.str _), .fresh | .fresh, .fresh => eachCandidate c fun e =>
      match b.unify element (.element e) with
      | some b => attributeOn e binding name value b
      | none => .done
    | _, _ => .done

end PageLogic.Relation
