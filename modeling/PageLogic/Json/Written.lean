import PageLogic.Json
/-!
JSON as it is written: a text read by its grammar and no further. Strings may hold halves of
surrogate pairs that make no character, numbers may be of any size, and a field may come twice;
whoever reads a value decides whether that is an error.
-/
namespace PageLogic.Json

/-- A part of a string: a character that is written as itself, or a number of sixteen bits. -/
inductive Piece where
  | char (c : Char)
  | unit (n : Nat)
  deriving DecidableEq, Repr

/-- A number digit by digit. -/
structure Numeral where
  negative : Bool
  whole : List Char
  fraction : List Char
  /-- The digits of the exponent, if it is written, and whether a minus stands in front. -/
  exponent : Option (Bool × List Char)
  deriving DecidableEq, Repr

inductive Written where
  | null
  | bool (value : Bool)
  | number (n : Numeral)
  | string (pieces : List Piece)
  | array (items : List Written)
  | object (fields : List (List Piece × Written))
  deriving Repr

namespace Written

def isSpace (c : Char) : Bool :=
  c == ' ' || c == '\n' || c == '\t' || c == '\r'

def dropSpaces (cs : List Char) : List Char :=
  cs.dropWhile isSpace

/-! ### Strings -/

/-- The character that a letter behind a backslash stands for. -/
def escaped? : Char → Option Char
  | '"' => some '"'
  | '\\' => some '\\'
  | '/' => some '/'
  | 'b' => some '\x08'
  | 'f' => some '\x0c'
  | 'n' => some '\n'
  | 'r' => some '\r'
  | 't' => some '\t'
  | _ => none

def hexDigit? (c : Char) : Option Nat :=
  if c.isDigit then some (c.toNat - '0'.toNat)
  else if 'a' ≤ c && c ≤ 'f' then some (c.toNat - 'a'.toNat + 10)
  else if 'A' ≤ c && c ≤ 'F' then some (c.toNat - 'A'.toNat + 10)
  else none

/-- The number of four hexadecimal digits. -/
def unit? (a b c d : Char) : Option Nat := do
  let a ← hexDigit? a
  let b ← hexDigit? b
  let c ← hexDigit? c
  let d ← hexDigit? d
  some (((a * 16 + b) * 16 + c) * 16 + d)

/-- A piece in front of what a string goes on with. -/
def piece (p : Piece) (rest : Option (List Piece × List Char)) : Option (List Piece × List Char) :=
  rest.map fun (others, rest) => (p :: others, rest)

/-- The pieces of a string up to its closing quote, and what follows. -/
def pieces : List Char → Option (List Piece × List Char)
  | [] => none
  | '"' :: rest => some ([], rest)
  | '\\' :: 'u' :: a :: b :: c :: d :: rest =>
    match unit? a b c d with
    | some n => piece (.unit n) (pieces rest)
    | none => none
  | '\\' :: c :: rest =>
    match escaped? c with
    | some c => piece (.char c) (pieces rest)
    | none => none
  | c :: rest => if c.toNat < 0x20 then none else piece (.char c) (pieces rest)

/-! ### Numbers -/

/-- The digits before the point: a zero, or digits that do not start with one. -/
def wholeDigits : List Char → Option (List Char × List Char)
  | '0' :: rest => some (['0'], rest)
  | c :: rest =>
    if c.isDigit then some (c :: rest.takeWhile Char.isDigit, rest.dropWhile Char.isDigit)
    else none
  | [] => none

/-- At least one digit, and what follows the digits. -/
def someDigits (cs : List Char) : Option (List Char × List Char) :=
  let digits := cs.takeWhile Char.isDigit
  if digits.isEmpty then none else some (digits, cs.dropWhile Char.isDigit)

/-- The digits behind the point; without a point there are none. -/
def fractionDigits : List Char → Option (List Char × List Char)
  | '.' :: rest => someDigits rest
  | cs => some ([], cs)

/-- The exponent, if there is one. -/
def exponentDigits : List Char → Option (Option (Bool × List Char) × List Char)
  | c :: rest =>
    if c = 'e' || c = 'E' then
      let (negative, rest) : Bool × List Char :=
        match rest with
        | '-' :: rest => (true, rest)
        | '+' :: rest => (false, rest)
        | rest => (false, rest)
      (someDigits rest).map fun (digits, rest) => (some (negative, digits), rest)
    else some (none, c :: rest)
  | [] => some (none, [])

/-- The number at the front of the text, and what follows. -/
def numeral (cs : List Char) : Option (Numeral × List Char) := do
  let (negative, cs) : Bool × List Char :=
    match cs with
    | '-' :: rest => (true, rest)
    | cs => (false, cs)
  let (whole, cs) ← wholeDigits cs
  let (fraction, cs) ← fractionDigits cs
  let (exponent, cs) ← exponentDigits cs
  some (⟨negative, whole, fraction, exponent⟩, cs)

/-! ### Values -/

mutual

/-- The value at the front of the text, and what follows. Every level of `fuel` takes a character
or hands on to one that does. -/
def value : (fuel : Nat) → List Char → Option (Written × List Char)
  | 0, _ => none
  | fuel + 1, cs =>
    match dropSpaces cs with
    | 'n' :: 'u' :: 'l' :: 'l' :: rest => some (.null, rest)
    | 't' :: 'r' :: 'u' :: 'e' :: rest => some (.bool true, rest)
    | 'f' :: 'a' :: 'l' :: 's' :: 'e' :: rest => some (.bool false, rest)
    | '"' :: rest => (pieces rest).map fun (content, rest) => (.string content, rest)
    | '[' :: rest =>
      match dropSpaces rest with
      | ']' :: rest => some (.array [], rest)
      | rest => (items fuel rest).map fun (items, rest) => (.array items, rest)
    | '\x7b' :: rest =>
      match dropSpaces rest with
      | '\x7d' :: rest => some (.object [], rest)
      | rest => (fields fuel rest).map fun (fields, rest) => (.object fields, rest)
    | rest => (numeral rest).map fun (n, rest) => (.number n, rest)

/-- The items of an array up to its closing bracket, at least one, and what follows. -/
def items : (fuel : Nat) → List Char → Option (List Written × List Char)
  | 0, _ => none
  | fuel + 1, cs =>
    match value fuel cs with
    | none => none
    | some (item, rest) =>
      match dropSpaces rest with
      | ',' :: rest => (items fuel rest).map fun (items, rest) => (item :: items, rest)
      | ']' :: rest => some ([item], rest)
      | _ => none

/-- The fields of an object up to its closing brace, at least one, and what follows. -/
def fields : (fuel : Nat) → List Char → Option (List (List Piece × Written) × List Char)
  | 0, _ => none
  | fuel + 1, cs =>
    match dropSpaces cs with
    | '"' :: rest =>
      match pieces rest with
      | none => none
      | some (key, rest) =>
        match dropSpaces rest with
        | ':' :: rest =>
          match value fuel rest with
          | none => none
          | some (field, rest) =>
            match dropSpaces rest with
            | ',' :: rest =>
              (fields fuel rest).map fun (fields, rest) => ((key, field) :: fields, rest)
            | '\x7d' :: rest => some ([(key, field)], rest)
            | _ => none
        | _ => none
    | _ => none

end

/-- The value that a whole text writes down, if it writes down one. -/
def parse? (cs : List Char) : Option Written :=
  match value (2 * cs.length + 2) cs with
  | some (w, rest) => if (dropSpaces rest).isEmpty then some w else none
  | none => none

end Written

/-! ### Texts and numbers of written values -/

def isHighHalf (n : Nat) : Bool := 0xD800 ≤ n && n < 0xDC00

def isLowHalf (n : Nat) : Bool := 0xDC00 ≤ n && n < 0xE000

/-- The characters of a string; nothing if half of a pair stands alone. -/
def textOf? : List Piece → Option (List Char)
  | [] => some []
  | .char c :: rest => (textOf? rest).map (c :: ·)
  | .unit h :: .unit l :: rest =>
    if isHighHalf h then
      if isLowHalf l then
        (textOf? rest).map (Char.ofNat (0x10000 + (h - 0xD800) * 0x400 + (l - 0xDC00)) :: ·)
      else none
    else if isLowHalf h then none
    else (textOf? (.unit l :: rest)).map (Char.ofNat h :: ·)
  | .unit n :: rest =>
    if isHighHalf n || isLowHalf n then none else (textOf? rest).map (Char.ofNat n :: ·)

namespace Numeral

/-- The value of digits. -/
def natOf (digits : List Char) : Nat :=
  digits.foldl (fun n c => 10 * n + (c.toNat - '0'.toNat)) 0

/-- A number without sign, point and exponent that fits into 64 bits. -/
def nat? (n : Numeral) : Option Nat :=
  if n.negative || !n.fraction.isEmpty || n.exponent.isSome then none
  else if natOf n.whole < Word.limit then some (natOf n.whole) else none

end Numeral

namespace Written

/-- The text of a string without halves of pairs. -/
def string? : Written → Option String
  | .string pieces => (textOf? pieces).map String.ofList
  | _ => none

def bool? : Written → Option Bool
  | .bool b => some b
  | _ => none

/-- A whole number of 64 bits without sign. -/
def nat? : Written → Option Nat
  | .number n => n.nat?
  | _ => none

/-- The fields of an object by name; nothing if some name is no text. -/
def named? (fields : List (List Piece × Written)) : Option (List (List Char × Written)) :=
  fields.mapM fun f => (textOf? f.1).map fun name => (name, f.2)

/-- What a written record says about the fields of these names. An object gives them by name, each
at most once, and may hold others; an array gives them in order and holds no others. -/
def record? (names : List String) : Written → Option (List (Option Written))
  | .object fields => do
    let fields ← named? fields
    let given (name : String) : List (List Char × Written) :=
      fields.filter fun f => f.1 == name.toList
    if names.any fun name => (given name).length > 1 then none
    else some (names.map fun name => (given name).head?.map (·.2))
  | .array items =>
    if items.length ≤ names.length then
      some (items.map some ++ List.replicate (names.length - items.length) none)
    else none
  | _ => none

/-- The value of a field that may be missing. -/
def orDefault {α : Type} (read : Written → Option α) (default : α) : Option Written → Option α
  | none => some default
  | some w => read w

/-- The value of a field that may be missing or null. -/
def orNothing {α : Type} (read : Written → Option α) : Option Written → Option (Option α)
  | none => some none
  | some .null => some none
  | some w => (read w).map some

end Written

end PageLogic.Json
