import PageLogic.Json.Written
/-!
JSON values from what is written. The strict reading refuses texts with halves of surrogate pairs,
numbers beyond the range of doubles and values that are nested too deep. An object keeps the last of
several fields of one name, and its fields in the order of their names.
-/
namespace PageLogic.Json

/-! ### Numbers -/

namespace Numeral

/-- Digits taken into a number of 64 bits as far as they fit, and the power of ten that is owed for
those that do not. -/
def takeWhole : (significand : Nat) → (owed : Int) → (full : Bool) → List Char → Nat × Int
  | significand, owed, _, [] => (significand, owed)
  | significand, owed, full, c :: rest =>
    let next := 10 * significand + (c.toNat - '0'.toNat)
    if full || next ≥ Word.limit then takeWhole significand (owed + 1) true rest
    else takeWhole next owed false rest

/-- Digits behind the point, taken in as far as they fit; the others are dropped. -/
def takeFraction : (significand : Nat) → (owed : Int) → List Char → Nat × Int
  | significand, owed, [] => (significand, owed)
  | significand, owed, c :: rest =>
    let next := 10 * significand + (c.toNat - '0'.toNat)
    if next ≥ Word.limit then (significand, owed) else takeFraction next (owed - 1) rest

/-- A double times a power of ten, by at most `rounds` divisions. Nothing if it is too large. -/
def scaled : (rounds : Nat) → Float → Int → Option Float
  | 0, f, _ => some f
  | rounds + 1, f, exponent =>
    if exponent.natAbs ≤ 308 then
      let power := Float.ofScientific 1 false exponent.natAbs
      if exponent ≥ 0 then
        let product := f * power
        if product.isInf then none else some product
      else some (f / power)
    else if f == 0.0 then some f
    else if exponent ≥ 0 then none
    else scaled rounds (f / Float.ofScientific 1 false 308) (exponent + 308)

/-- The number as a double; nothing if it is too large. -/
def real? (n : Numeral) : Option Number :=
  let (significand, owed) := takeWhole 0 0 false n.whole
  let (significand, owed) := takeFraction significand owed n.fraction
  let exponent : Int :=
    match n.exponent with
    | none => owed
    | some (negative, digits) =>
      if negative then owed - (natOf digits : Int) else owed + (natOf digits : Int)
  (scaled 4 (UInt64.ofNat significand).toFloat exponent).map fun f =>
    .real (if n.negative then -f else f).toBits

/-- A whole number if it is written without point and exponent and fits into 64 bits, and a double
otherwise. -/
def number? (n : Numeral) : Option Number :=
  let value := natOf n.whole
  if !n.fraction.isEmpty || n.exponent.isSome then n.real?
  else if n.negative then
    if 0 < value && value ≤ Word.signedLimit then some (.whole (-(value : Int))) else n.real?
  else if value < Word.limit then some (.whole value)
  else n.real?

end Numeral

/-! ### Values -/

/-- Puts a field among fields that stand in the order of their names; it takes the place of one of
the same name. -/
def putField (name : String) (j : Json) : List (String × Json) → List (String × Json)
  | [] => [(name, j)]
  | (k, v) :: rest =>
    if name = k then (name, j) :: rest
    else if name < k then (name, j) :: (k, v) :: rest
    else (k, v) :: putField name j rest

mutual

/-- The value of what is written, if arrays and objects are nested less than `depth` deep. -/
def ofWritten? (depth : Nat) : Written → Option Json
  | .null => some .null
  | .bool b => some (.bool b)
  | .number n => n.number?.map .number
  | .string pieces => (textOf? pieces).map fun text => .string (.ofList text)
  | .array items => if depth ≤ 1 then none else (itemsOf? (depth - 1) items).map .array
  | .object fields => if depth ≤ 1 then none else (fieldsOf? (depth - 1) [] fields).map .object

def itemsOf? (depth : Nat) : List Written → Option (List Json)
  | [] => some []
  | w :: rest => do
    let j ← ofWritten? depth w
    let rest ← itemsOf? depth rest
    some (j :: rest)

/-- The fields, put among those that came before. -/
def fieldsOf? (depth : Nat) (sofar : List (String × Json)) :
    List (List Piece × Written) → Option (List (String × Json))
  | [] => some sofar
  | (key, w) :: rest => do
    let name ← textOf? key
    let j ← ofWritten? depth w
    fieldsOf? depth (putField (.ofList name) j sofar) rest

end

/-- How deep values may be nested. -/
def depthLimit : Nat := 128

/-- The value that a text writes down, if it is one. -/
def parse? (text : String) : Option Json :=
  (Written.parse? text.toList).bind (ofWritten? depthLimit)

end PageLogic.Json
