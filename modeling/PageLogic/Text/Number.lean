/-!
Whole numbers written in digits. A sign may stand in front; blanks and other marks may not stand
anywhere.
-/
namespace PageLogic.Text

/-- The value of decimal digits; nothing if there are none or something else is among them. -/
def digits? (cs : List Char) : Option Nat :=
  if cs.isEmpty || !cs.all Char.isDigit then none
  else some (cs.foldl (fun n c => 10 * n + (c.toNat - '0'.toNat)) 0)

/-- A number below the limit, perhaps with a plus sign. -/
def natBelow? (limit : Nat) (cs : List Char) : Option Nat := do
  let n ← digits? (match cs with
    | '+' :: rest => rest
    | cs => cs)
  if n < limit then some n else none

/-- A number from `-limit` up to but not including `limit`, perhaps with a sign. -/
def intWithin? (limit : Nat) (cs : List Char) : Option Int := do
  let (negative, digits) : Bool × List Char :=
    match cs with
    | '+' :: rest => (false, rest)
    | '-' :: rest => (true, rest)
    | cs => (false, cs)
  let n ← digits? digits
  if negative then (if n ≤ limit then some (-(n : Int)) else none)
  else if n < limit then some n else none

end PageLogic.Text
