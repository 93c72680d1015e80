import PageLogic.Html.Node
import PageLogic.Text.Blank
import PageLogic.Text.Lowercase
import PageLogic.Text.Number
/-!
Inline styles: what an element's own `style` attribute declares, and whether a declared opacity
lets anything be seen.
-/
namespace PageLogic.Html

namespace Style

/-- One declaration: what stands before its first colon, and the value behind, both without blanks
at the ends. A text without a colon declares nothing. -/
def declaration? (text : List Char) : Option (List Char × List Char) :=
  (Text.cutAt (· == ':') text).map fun (property, value) => (Text.trim property, Text.trim value)

/-- All declarations in order; semicolons stand between them. -/
def declarations (style : List Char) : List (List Char × List Char) :=
  (Text.pieces (· == ';') style).filterMap declaration?

/-- The value of the first declaration of a property, in lower case. The property is named in
lower case. -/
def value? (style : List Char) (property : String) : Option String :=
  ((declarations style).find? fun d => d.1.map Char.toLower == property.toList).map fun d =>
    .ofList (d.2.map Char.toLower)

/-- Whether `digits` times ten to the power `exponent` is still positive when it is rounded to a
double, the least of which is two to the power of -1074; half of that rounds to zero. -/
def remainsPositive (digits : Nat) (exponent : Int) : Bool :=
  if digits = 0 then false
  else if exponent ≥ 0 then true
  else
    let n := exponent.natAbs
    n ≤ digits.log2 + 1100 && digits.shiftLeft 1075 > Nat.pow 10 n

/-- The sign at the front: whether it is a minus, and the rest. -/
def signOf : List Char → Bool × List Char
  | '-' :: rest => (true, rest)
  | '+' :: rest => (false, rest)
  | cs => (false, cs)

/-- The exponent behind the digits of a number; nothing if what stands there is none. -/
def exponent? : List Char → Option Int
  | [] => some 0
  | e :: rest =>
    if e.toLower = 'e' then
      let (negative, digits) := signOf rest
      (Text.digits? digits).map fun n => if negative then -(n : Int) else n
    else none

/-- Whether a number is positive; nothing if the text is no number. -/
def isPositive? (text : String) : Option Bool :=
  let (negative, cs) := signOf text.toList
  match Text.lowercaseAscii (.ofList cs) with
  | "inf" | "infinity" => some !negative
  | "nan" => some false
  | _ =>
    let whole := cs.takeWhile Char.isDigit
    let rest := cs.dropWhile Char.isDigit
    let (fraction, rest) : List Char × List Char :=
      match rest with
      | '.' :: rest => (rest.takeWhile Char.isDigit, rest.dropWhile Char.isDigit)
      | rest => ([], rest)
    match Text.digits? (whole ++ fraction), exponent? rest with
    | some digits, some exponent =>
      some (!negative && remainsPositive digits (exponent - fraction.length))
    | _, _ => none

end Style

/-- The value that the element's own style declares for a property. -/
def Element.style? (e : Element) (property : String) : Option String :=
  (e.attribute? "style").bind fun style => Style.value? style.toList property

end PageLogic.Html
