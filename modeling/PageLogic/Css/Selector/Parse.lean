import PageLogic.Css.Selector
/-!
From a text to the selector that it writes down. A text with anything that is no selector, or with
an alternative that is empty, has none.
-/
namespace PageLogic.Css

/-- Attributes whose values are compared without case in a page, unless the selector says
otherwise. -/
def foldedAttributes : List String := [
  "accept", "accept-charset", "align", "alink", "axis", "bgcolor", "charset", "checked", "clear",
  "codetype", "color", "compact", "declare", "defer", "dir", "direction", "disabled", "enctype",
  "face", "frame", "hreflang", "http-equiv", "lang", "language", "link", "media", "method",
  "multiple", "nohref", "noresize", "noshade", "nowrap", "readonly", "rel", "rev", "rules",
  "scope", "scrolling", "selected", "shape", "target", "text", "type", "valign", "valuetype",
  "vlink"]

def dropSpaces (cs : List Component) : List Component :=
  cs.dropWhile Component.isSpace

/-! ### Ordinals -/

/-- The offset `-5` in a name such as `n-5`. -/
def offsetInName (name : String) : Option Int :=
  match name.toList with
  | n :: '-' :: digits =>
    if n.toLower = 'n' && !digits.isEmpty && digits.all Char.isDigit then
      some (clamp (-(natOfDigits digits : Int)))
    else none
  | _ => none

/-- An unsigned offset, taken with a sign that was written apart. -/
def unsignedOffset (sign : Int) (cs : List Component) : Option (Int × List Component) :=
  match dropSpaces cs with
  | .token (.number ⟨false, some b⟩) :: rest => some (sign * b, rest)
  | _ => none

/-- The offset behind the step; it may be missing. -/
def offset (cs : List Component) : Option (Int × List Component) :=
  match dropSpaces cs with
  | .token (.delim '+') :: rest => unsignedOffset 1 rest
  | .token (.delim '-') :: rest => unsignedOffset (-1) rest
  | .token (.number ⟨true, some b⟩) :: rest => some (b, rest)
  | _ => some (0, cs)

/-- What follows a step whose letter is written as the name, with what is behind that name. -/
def afterStep (step : Int) (name : String) (cs : List Component) :
    Option (Int × Int × List Component) :=
  match Text.lowercaseAscii name with
  | "n" => (offset cs).map fun (b, rest) => (step, b, rest)
  | "n-" => (unsignedOffset (-1) cs).map fun (b, rest) => (step, b, rest)
  | _ => (offsetInName name).map fun b => (step, b, cs)

/-- A step and an offset at the front, and the rest. -/
def stepAndOffset (cs : List Component) : Option (Int × Int × List Component) :=
  match dropSpaces cs with
  | .token (.number ⟨_, some b⟩) :: rest => some (0, b, rest)
  | .token (.dimension ⟨_, some a⟩ unit) :: rest => afterStep a unit rest
  | .token (.ident name) :: rest =>
    match Text.lowercaseAscii name with
    | "even" => some (2, 0, rest)
    | "odd" => some (2, 1, rest)
    | _ =>
      match name.toList with
      | '-' :: name => afterStep (-1) (.ofList name) rest
      | _ => afterStep 1 name rest
  | .token (.delim '+') :: .token (.ident name) :: rest => afterStep 1 name rest
  | _ => none

/-- The content of an ordinal condition. -/
def ordinal (ofType fromEnd : Bool) (cs : List Component) : Option Simple :=
  match stepAndOffset cs with
  | some (step, offset, rest) =>
    if (dropSpaces rest).isEmpty then some (.ordinal ⟨step, offset, ofType, fromEnd⟩) else none
  | none => none

/-! ### Attributes -/

/-- The name at the front of an attribute condition, and whether it is sought in every
vocabulary or only without a vocabulary that is written out. -/
def attributeName : List Component → Option (Bool × String × List Component)
  | .token (.ident _) :: .token (.delim '|') :: _ => none
  | .token (.ident name) :: rest => some (false, name, rest)
  | .token (.delim '*') :: .token (.delim '|') :: .token (.ident name) :: rest =>
    some (true, name, rest)
  | .token (.delim '|') :: .token (.ident name) :: rest => some (false, name, rest)
  | _ => none

def comparison? : Component → Option Comparison
  | .token (.delim '=') => some .equal
  | .token (.comparison '~') => some .word
  | .token (.comparison '|') => some .subtag
  | .token (.comparison '^') => some .start
  | .token (.comparison '$') => some .finish
  | .token (.comparison '*') => some .anywhere
  | _ => none

def value? : Component → Option String
  | .token (.ident value) => some value
  | .token (.string value) => some value
  | _ => none

/-- The flag behind the value, which says how letters are compared. -/
def letterCase (anySpace : Bool) (name : String) (cs : List Component) : Option LetterCase :=
  match dropSpaces cs with
  | [] =>
    if !anySpace && foldedAttributes.contains (Text.lowercaseAscii name) then some .foldedInHtml
    else some .exact
  | .token (.ident flag) :: rest =>
    if !(dropSpaces rest).isEmpty then none
    else
      match Text.lowercaseAscii flag with
      | "i" => some .folded
      | "s" => some .exact
      | _ => none
  | _ => none

/-- The content of an attribute condition. -/
def attributeTest (cs : List Component) : Option AttributeTest := do
  let (anySpace, name, rest) ← attributeName (dropSpaces cs)
  match dropSpaces rest with
  | [] => some ⟨name, anySpace, none⟩
  | c :: rest =>
    let comparison ← comparison? c
    match dropSpaces rest with
    | [] => none
    | v :: rest =>
      let value ← value? v
      let letterCase ← letterCase anySpace name rest
      some ⟨name, anySpace, some (comparison, value, letterCase)⟩

/-! ### Compounds -/

/-- The condition on the name at the front of a compound, if there is one. -/
def tagTests : List Component → Option (List Simple × List Component)
  | .token (.ident _) :: .token (.delim '|') :: _ => none
  | .token (.ident name) :: rest => some ([.tag name], rest)
  | .token (.delim '*') :: .token (.delim '|') :: rest =>
    match rest with
    | .token (.delim '*') :: rest => some ([.universal], rest)
    | .token (.ident name) :: rest => some ([.tag name], rest)
    | _ => none
  | .token (.delim '*') :: rest => some ([.universal], rest)
  | .token (.delim '|') :: rest =>
    match rest with
    | .token (.delim '*') :: rest => some ([.unspaced], rest)
    | .token (.ident name) :: rest => some ([.unspaced, .tag name], rest)
    | _ => none
  | cs => some ([], cs)

/-- The conditions that a word behind a colon stands for. -/
def wordTests (word : String) : Option (List Simple) :=
  let first (ofType fromEnd : Bool) : Simple := .ordinal ⟨0, 1, ofType, fromEnd⟩
  match Text.lowercaseAscii word with
  | "first-child" => some [first false false]
  | "last-child" => some [first false true]
  | "only-child" => some [first false false, first false true]
  | "first-of-type" => some [first true false]
  | "last-of-type" => some [first true true]
  | "only-of-type" => some [first true false, first true true]
  | "root" => some [.outermost]
  | "empty" => some [.empty]
  | "scope" => some [.scope]
  | _ => none

/-- The conditions behind the name of a compound, and the rest. `function` reads those that take
arguments. -/
def conditions (function : String → List Component → Option Simple) :
    List Component → Option (List Simple × List Component)
  | .token (.hash name) :: rest => do
    let (tests, rest) ← conditions function rest
    some (.id name :: tests, rest)
  | .token (.delim '.') :: rest =>
    match rest with
    | .token (.ident name) :: rest => do
      let (tests, rest) ← conditions function rest
      some (.className name :: tests, rest)
    | _ => none
  | .block '[' content :: rest => do
    let test ← attributeTest content
    let (tests, rest) ← conditions function rest
    some (.attribute test :: tests, rest)
  | .token .colon :: rest =>
    match rest with
    | .token (.ident word) :: rest => do
      let mine ← wordTests word
      let (tests, rest) ← conditions function rest
      some (mine ++ tests, rest)
    | .function name content :: rest => do
      let mine ← function name content
      let (tests, rest) ← conditions function rest
      some (mine :: tests, rest)
    | _ => none
  | cs => some ([], cs)

/-- The compound at the front, which holds one condition at least, and the rest. -/
def compound (function : String → List Component → Option Simple) (cs : List Component) :
    Option (List Simple × List Component) := do
  let (tag, rest) ← tagTests (dropSpaces cs)
  let (tests, rest) ← conditions function rest
  if (tag ++ tests).isEmpty then none else some (tag ++ tests, rest)

/-- The combinator at the front, and the rest; blanks alone are one too. -/
def combinator (cs : List Component) : Option (Combinator × List Component) :=
  match dropSpaces cs with
  | .token (.delim '>') :: rest => some (.child, rest)
  | .token (.delim '+') :: rest => some (.next, rest)
  | .token (.delim '~') :: rest => some (.later, rest)
  | rest => if rest.length < cs.length then some (.descendant, rest) else none

/-- Compounds joined to those in front, up to the end. Every round reads a compound. -/
def complexFrom (function : String → List Component → Option Simple) :
    (rounds : Nat) → (List Simple → Complex) → List Component → Option Complex
  | 0, _, _ => none
  | rounds + 1, join, cs => do
    let (tests, rest) ← compound function cs
    if (dropSpaces rest).isEmpty then some (join tests)
    else
      let (c, rest) ← combinator rest
      complexFrom function rounds (.joined (join tests) c) rest

def complex (function : String → List Component → Option Simple) (cs : List Component) :
    Option Complex :=
  complexFrom function (cs.length + 1) .compound cs

/-- A condition with arguments; `depth` bounds how deep such conditions are nested. -/
def functionTest : (depth : Nat) → String → List Component → Option Simple
  | 0, _, _ => none
  | depth + 1, name, content =>
    match Text.lowercaseAscii name with
    | "nth-child" => ordinal false false content
    | "nth-last-child" => ordinal false true content
    | "nth-of-type" => ordinal true false content
    | "nth-last-of-type" => ordinal true true content
    | "not" =>
      ((Text.pieces Component.isComma content).mapM (complex (functionTest depth))).map .none
    | "host" => do
      let (_, rest) ← compound (functionTest depth) content
      if (dropSpaces rest).isEmpty then some .host else none
    | _ => none

/-- The selector that a text writes down. -/
def Selector.parse? (text : String) : Option Selector :=
  let tokens := Token.all text
  ((Text.pieces Component.isComma (Component.nest tokens)).mapM
    (complex (functionTest (tokens.length + 1)))).map Selector.mk

end PageLogic.Css
