import PageLogic.Decimal.Shortest
import PageLogic.Text.Blank
import PageLogic.Text.Quoted
import PageLogic.Word
/-!
Values of the data format JSON, how to look into them and how they are written. Fields are written
in the order in which an object holds them.
-/
namespace PageLogic

/-- A number: a whole one, or the bits of a double. -/
inductive Json.Number where
  | whole (value : Int)
  | real (bits : UInt64)
  deriving DecidableEq, Repr

inductive Json where
  | null
  | bool (value : Bool)
  | number (value : Json.Number)
  | string (text : String)
  | array (items : List Json)
  | object (fields : List (String × Json))
  deriving Repr

namespace Json

/-! ### Looking into a value -/

/-- The field of that name, if the value is an object that has one. -/
def get? (name : String) : Json → Option Json
  | .object fields => fields.lookup name
  | _ => none

def string? : Json → Option String
  | .string s => some s
  | _ => none

def bool? : Json → Option Bool
  | .bool b => some b
  | _ => none

def array? : Json → Option (List Json)
  | .array items => some items
  | _ => none

/-- A whole number of 64 bits with sign. -/
def int? : Json → Option Int
  | .number (.whole i) =>
    if -(Word.signedLimit : Int) ≤ i ∧ i < Word.signedLimit then some i else none
  | _ => none

/-- A whole number of 64 bits without sign. -/
def nat? : Json → Option Nat
  | .number (.whole i) => if 0 ≤ i ∧ i < Word.limit then some i.toNat else none
  | _ => none

/-- The nearest whole number, a half going away from zero, and no further than 64 bits reach. -/
def Number.rounded : Number → Int
  | .whole i => i
  | .real bits =>
    let magnitude := ((Decimal.Magnitude.ofBits? bits).map (·.rounded)).getD 0
    Word.clamp (if bits.toNat ≥ Word.signedLimit then -(magnitude : Int) else magnitude)

/-! ### Writing a value -/

/-- A character inside a string. -/
def escapeChar (c : Char) : List Char :=
  match c with
  | '"' => ['\\', '"']
  | '\\' => ['\\', '\\']
  | '\n' => ['\\', 'n']
  | '\r' => ['\\', 'r']
  | '\t' => ['\\', 't']
  | '\x08' => ['\\', 'b']
  | '\x0c' => ['\\', 'f']
  | c =>
    if c.toNat < 0x20 then
      ['\\', 'u', '0', '0', Nat.digitChar (c.toNat / 16), Nat.digitChar (c.toNat % 16)]
    else [c]

def writeString (s : String) : List Char :=
  '"' :: s.toList.flatMap escapeChar ++ ['"']

/-- A decimal number in plain notation if it has at most sixteen digits before the point and few
zeros behind it, and with an exponent otherwise. -/
def writeDecimal (d : Decimal) : List Char :=
  let digits := Nat.toDigits 10 d.digits
  let point := (digits.length : Int) + d.exponent
  if 0 ≤ d.exponent && point ≤ 16 then
    digits ++ List.replicate d.exponent.toNat '0' ++ ['.', '0']
  else if 0 < point && point ≤ 16 then
    digits.take point.toNat ++ '.' :: digits.drop point.toNat
  else if -5 < point && point ≤ 0 then
    ['0', '.'] ++ List.replicate (-point).toNat '0' ++ digits
  else
    let exponent := 'e' :: (toString (point - 1)).toList
    match digits with
    | [digit] => digit :: exponent
    | digit :: rest => digit :: '.' :: rest ++ exponent
    | [] => exponent

def writeNumber : Number → List Char
  | .whole i => (toString i).toList
  | .real bits =>
    match Decimal.Magnitude.ofBits? bits with
    | none => "null".toList
    | some m => (if bits.toNat ≥ Word.signedLimit then ['-'] else []) ++ writeDecimal m.shortest

mutual

/-- The value on one line without blanks. -/
def write : Json → List Char
  | .null => "null".toList
  | .bool true => "true".toList
  | .bool false => "false".toList
  | .number n => writeNumber n
  | .string s => writeString s
  | .array items => '[' :: writeItems true items ++ [']']
  | .object fields => '\x7b' :: writeFields true fields ++ ['\x7d']

def writeItems (first : Bool) : List Json → List Char
  | [] => []
  | j :: rest => (if first then [] else [',']) ++ write j ++ writeItems false rest

def writeFields (first : Bool) : List (String × Json) → List Char
  | [] => []
  | (k, j) :: rest =>
    (if first then [] else [',']) ++ writeString k ++ ':' :: write j ++ writeFields false rest

end

/-- A new line with two spaces for each level. -/
def newLine (level : Nat) : List Char :=
  '\n' :: List.replicate (2 * level) ' '

mutual

/-- The value with every item and every field on a line of its own. -/
def writePretty (level : Nat) : Json → List Char
  | .array [] => ['[', ']']
  | .array items => '[' :: prettyItems (level + 1) true items ++ newLine level ++ [']']
  | .object [] => ['\x7b', '\x7d']
  | .object fields => '\x7b' :: prettyFields (level + 1) true fields ++ newLine level ++ ['\x7d']
  | .null => write .null
  | .bool b => write (.bool b)
  | .number n => write (.number n)
  | .string s => write (.string s)

def prettyItems (level : Nat) (first : Bool) : List Json → List Char
  | [] => []
  | j :: rest =>
    (if first then [] else [',']) ++ newLine level ++ writePretty level j ++
      prettyItems level false rest

def prettyFields (level : Nat) (first : Bool) : List (String × Json) → List Char
  | [] => []
  | (k, j) :: rest =>
    (if first then [] else [',']) ++ newLine level ++ writeString k ++ ':' :: ' ' ::
      writePretty level j ++ prettyFields level false rest

end

/-- The value as text on one line. -/
def compact (j : Json) : String :=
  .ofList j.write

/-- The value as text of several lines. -/
def pretty (j : Json) : String :=
  .ofList (j.writePretty 0)

end Json

end PageLogic
