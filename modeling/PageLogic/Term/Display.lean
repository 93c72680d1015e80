import PageLogic.Term
import PageLogic.Text.Quoted
/-!
The text of terms. Strings are quoted, lists stand in round brackets with spaces between the
items, records in braces with commas between the fields.
-/
namespace PageLogic

def Handle.display (e : Handle) : String :=
  "<element " ++ e.id ++ ">"

namespace Term

mutual

def display : Term → String
  | .var x => "_.v" ++ toString x.id
  | .placeholder n => "_" ++ toString n
  | .str s => Text.quoted s
  | .int i => toString i
  | .bool b => if b then "true" else "false"
  | .element e => e.display
  | .record fields => "\x7b" ++ displayFields true fields ++ "\x7d"
  | .list items => "(" ++ displayAll true items ++ ")"

/-- The fields one after the other; every field but the first follows a comma. -/
def displayFields (first : Bool) : List (String × Term) → String
  | [] => ""
  | (k, t) :: rest =>
    (if first then "" else ", ") ++ k ++ ": " ++ display t ++ displayFields false rest

/-- The items one after the other; every item but the first follows a space. -/
def displayAll (first : Bool) : List Term → String
  | [] => ""
  | t :: rest => (if first then "" else " ") ++ display t ++ displayAll false rest

end

end Term

end PageLogic
