import PageLogic.Html.Entity
/-!
Tokens of style sheet text, in which selectors are written, and how they are read off its front.
Comments are skipped. Tokens that no selector can hold are read as `unfit`.
-/
namespace PageLogic.Css

/-- A number as it is written. -/
structure Numeral where
  /-- Whether a plus or minus stands in front. -/
  signed : Bool
  /-- The value of a number without point and exponent, cut to 32 bits. -/
  whole : Option Int
  deriving DecidableEq, Repr

inductive Token where
  | space
  | ident (name : String)
  /-- A name after a hash sign that could stand without it. -/
  | hash (name : String)
  | string (content : String)
  | number (n : Numeral)
  | dimension (n : Numeral) (unit : String)
  | colon
  | comma
  | delim (c : Char)
  /-- One of the five two-character comparisons, named by its first character. -/
  | comparison (c : Char)
  /-- A name with an opening round bracket behind. -/
  | function (name : String)
  | opening (c : Char)
  | closing (c : Char)
  | unfit
  deriving DecidableEq, Repr

def isSpace (c : Char) : Bool :=
  c == ' ' || c == '\t' || c == '\n' || c == '\x0c' || c == '\r'

def isNewline (c : Char) : Bool :=
  c == '\n' || c == '\x0c' || c == '\r'

/-- Stands in for characters that cannot be. -/
def replacement : Char := Char.ofNat 0xFFFD

def isNameStart (c : Char) : Bool :=
  c.isAlpha || c == '_' || c == '\x00' || c.toNat ≥ 0x80

def isNameChar (c : Char) : Bool :=
  isNameStart c || c.isDigit || c == '-'

/-- Whether a backslash with this text behind stands for a character. -/
def escapes : List Char → Bool
  | c :: _ => !isNewline c
  | [] => true

/-- Whether a name starts here. -/
def startsName : List Char → Bool
  | '-' :: '\\' :: rest => escapes rest
  | '-' :: c :: _ => isNameStart c || c == '-'
  | '\\' :: rest => escapes rest
  | c :: _ => isNameStart c
  | [] => false

/-- Drops one blank; a carriage return and its line feed are one. -/
def dropSpace : List Char → List Char
  | '\r' :: '\n' :: rest => rest
  | c :: rest => if isSpace c then rest else c :: rest
  | [] => []

/-- The character that a backslash stands for, given the text behind it, and the rest. -/
def unescape (cs : List Char) : Char × List Char :=
  match cs with
  | [] => (replacement, [])
  | c :: rest =>
    let digits := (cs.take 6).takeWhile fun c => (Html.hexDigit? c).isSome
    if digits.isEmpty then (if c = '\x00' then replacement else c, rest)
    else
      let n := digits.foldl (fun n c => 16 * n + (Html.hexDigit? c).getD 0) 0
      let valid := n ≠ 0 && n ≤ 0x10FFFF && !(0xD800 ≤ n && n ≤ 0xDFFF)
      (if valid then Char.ofNat n else replacement, dropSpace (cs.drop digits.length))

/-- The name at the front of the text and the rest. Every round takes a character. -/
def takeName : (rounds : Nat) → List Char → List Char × List Char
  | 0, cs => ([], cs)
  | _, [] => ([], [])
  | rounds + 1, c :: rest =>
    if c = '\\' then
      if escapes rest then
        let (d, rest) := unescape rest
        let (name, rest) := takeName rounds rest
        (d :: name, rest)
      else ([], c :: rest)
    else if isNameChar c then
      let (name, rest) := takeName rounds rest
      ((if c = '\x00' then replacement else c) :: name, rest)
    else ([], c :: rest)

def name (cs : List Char) : String × List Char :=
  let (name, rest) := takeName (cs.length + 1) cs
  (.ofList name, rest)

/-- The content of a string up to its closing quote, and the rest. The end of the text closes a
string; a line end inside makes it unfit. -/
def takeString (quote : Char) : (rounds : Nat) → List Char → Option (List Char × List Char)
  | 0, _ => none
  | _, [] => some ([], [])
  | rounds + 1, c :: rest =>
    if c = quote then some ([], rest)
    else if c = '\\' then
      match rest with
      | [] => some ([], [])
      | d :: _ =>
        if isNewline d then takeString quote rounds (dropSpace rest)
        else
          let (d, rest) := unescape rest
          (takeString quote rounds rest).map fun (content, rest) => (d :: content, rest)
    else if isNewline c then none
    else
      (takeString quote rounds rest).map fun (content, rest) =>
        ((if c = '\x00' then replacement else c) :: content, rest)

/-- Whether a number starts here, behind its sign. -/
def startsDigits : List Char → Bool
  | '.' :: c :: _ => c.isDigit
  | c :: _ => c.isDigit
  | [] => false

/-- Whether a number starts here. -/
def startsNumber : List Char → Bool
  | '+' :: rest => startsDigits rest
  | '-' :: rest => startsDigits rest
  | cs => startsDigits cs

/-- The part of a number behind its point, if there is one, is skipped. -/
def dropFraction : List Char → Option (List Char)
  | '.' :: c :: rest => if c.isDigit then some (rest.dropWhile Char.isDigit) else none
  | _ => none

/-- The exponent of a number, if there is one, is skipped. -/
def dropExponent : List Char → Option (List Char)
  | e :: rest =>
    if e = 'e' || e = 'E' then
      match rest with
      | '+' :: c :: rest => if c.isDigit then some (rest.dropWhile Char.isDigit) else none
      | '-' :: c :: rest => if c.isDigit then some (rest.dropWhile Char.isDigit) else none
      | c :: rest => if c.isDigit then some (rest.dropWhile Char.isDigit) else none
      | [] => none
    else none
  | [] => none

/-- Cuts a number to the range of 32 bits. -/
def clamp (n : Int) : Int :=
  max (-2147483648) (min 2147483647 n)

def natOfDigits (digits : List Char) : Nat :=
  digits.foldl (fun n c => 10 * n + (c.toNat - '0'.toNat)) 0

/-- The number at the front of the text and the rest. -/
def numeral (cs : List Char) : Numeral × List Char :=
  let (signed, negative, cs) : Bool × Bool × List Char :=
    match cs with
    | '+' :: rest => (true, false, rest)
    | '-' :: rest => (true, true, rest)
    | cs => (false, false, cs)
  let digits := cs.takeWhile Char.isDigit
  let cs := cs.dropWhile Char.isDigit
  let value : Int := natOfDigits digits
  let whole := clamp (if negative then -value else value)
  let fraction := dropFraction cs
  let cs := fraction.getD cs
  let exponent := dropExponent cs
  let plain := fraction.isNone && exponent.isNone
  (⟨signed, if plain then some whole else none⟩, exponent.getD cs)

/-- A token that starts with a number. -/
def numeric (cs : List Char) : Token × List Char :=
  let (n, rest) := numeral cs
  match rest with
  | '%' :: rest => (.unfit, rest)
  | rest =>
    if startsName rest then
      let (unit, rest) := name rest
      (.dimension n unit, rest)
    else (.number n, rest)

/-- A token that starts with a name. -/
def named (cs : List Char) : Token × List Char :=
  let (name, rest) := name cs
  match rest with
  | '(' :: rest => (.function name, rest)
  | rest => (.ident name, rest)

/-- What follows a comment whose opening has been read. -/
def dropComment : List Char → List Char
  | '*' :: '/' :: rest => rest
  | _ :: rest => dropComment rest
  | [] => []

/-- The token that starts with a character, given the text behind it, and the rest; nothing for a
comment. -/
def tokenAt (c : Char) (rest : List Char) : Option Token × List Char :=
  let cs := c :: rest
  if isSpace c then (some .space, rest.dropWhile isSpace)
  else if c = '"' || c = '\'' then
    match takeString c (rest.length + 1) rest with
    | some (content, rest) => (some (.string (.ofList content)), rest)
    | none => (some .unfit, [])
  else if startsNumber cs then
    let (t, rest) := numeric cs
    (some t, rest)
  else if (Text.after? "-->".toList cs).isSome || (Text.after? "<!--".toList cs).isSome then
    (some .unfit, rest)
  else if startsName cs then
    let (t, rest) := named cs
    (some t, rest)
  else
    match c, rest with
    | '/', '*' :: rest => (none, dropComment rest)
    | '#', rest =>
      if startsName rest then
        let (name, rest) := name rest
        (some (.hash name), rest)
      else (some .unfit, rest)
    | ':', rest => (some .colon, rest)
    | ',', rest => (some .comma, rest)
    | '(', rest | '[', rest | '\x7b', rest => (some (.opening c), rest)
    | ')', rest | ']', rest | '\x7d', rest => (some (.closing c), rest)
    | '~', '=' :: rest | '|', '=' :: rest | '^', '=' :: rest | '$', '=' :: rest
    | '*', '=' :: rest => (some (.comparison c), rest)
    | _, rest => (some (.delim c), rest)

/-- The tokens of a text. Every round takes a character. -/
def tokenize : (rounds : Nat) → List Char → List Token
  | 0, _ => []
  | _, [] => []
  | rounds + 1, c :: rest =>
    match tokenAt c rest with
    | (some t, rest) => t :: tokenize rounds rest
    | (none, rest) => tokenize rounds rest

/-- All tokens of a text. -/
def Token.all (text : String) : List Token :=
  let cs := text.toList
  tokenize cs.length cs

end PageLogic.Css
