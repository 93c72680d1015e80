import PageLogic.Html.Entity
import PageLogic.Html.Node
/-!
The tokens of an HTML source, and how the next ones are read off its front.

What the front of the source means depends on the element around it: the content of a title, a
style sheet or a script is text up to the element's own end tag. `Reading.next` takes at least one
character of a source that is not empty.
-/
namespace PageLogic.Html

structure Tag where
  name : String
  attributes : List Attribute
  selfClosing : Bool
  deriving DecidableEq, Repr

structure Doctype where
  name : Option String
  publicId : Option String
  systemId : Option String
  /-- The declaration was cut short or garbled. -/
  broken : Bool
  deriving DecidableEq, Repr

inductive Token where
  | doctype (d : Doctype)
  | startTag (t : Tag)
  | endTag (t : Tag)
  | comment (content : String)
  /-- A run of spaces, tabs and line ends. -/
  | space (run : String)
  /-- A run of other characters. -/
  | text (run : String)
  /-- The character of code zero. -/
  | null
  | eof
  deriving DecidableEq, Repr

/-- How the source is read at present. -/
inductive ReadingMode where
  /-- Markup and character references. -/
  | markup
  /-- Text with character references, up to the end tag of that name. -/
  | escapable (name : String)
  /-- Text, up to the end tag of that name. -/
  | raw (name : String)
  /-- As `raw`, but comments may hide end tags. -/
  | script (name : String)
  /-- Text up to the end of the source. -/
  | plaintext
  deriving DecidableEq, Repr

/-- The blanks of markup. -/
def isSpace (c : Char) : Bool :=
  c == ' ' || c == '\t' || c == '\n' || c == '\x0c' || c == '\r'

/-- Stands in for characters that cannot be. -/
def replacement : Char := Char.ofNat 0xFFFD

/-- Line ends become line feeds, and a byte order mark at the front is dropped. -/
def normalize (source : List Char) : List Char :=
  let rec lines : List Char → List Char
    | '\r' :: '\n' :: rest => '\n' :: lines rest
    | '\r' :: rest => '\n' :: lines rest
    | c :: rest => c :: lines rest
    | [] => []
  match source with
  | c :: rest => if c.toNat = 0xFEFF then lines rest else lines source
  | [] => []

/-- Puts the replacement in the place of characters of code zero. -/
def withoutNull (cs : List Char) : List Char :=
  cs.map fun c => if c = '\x00' then replacement else c

/-- Lower case of ASCII letters, without characters of code zero. -/
def nameOf (cs : List Char) : String :=
  .ofList ((withoutNull cs).map Char.toLower)

/-- Tokens for a piece of text, its runs of blanks apart. -/
def textTokens (cs : List Char) : List Token :=
  (cs.splitBy fun a b => isSpace a == isSpace b).map fun run =>
    if run.all isSpace then .space (.ofList run) else .text (.ofList run)

/-! ### Character references -/

/-- What the code points from 0x80 to 0x9F stand for when they are written as numbers. -/
def legacyCodes : List Nat := [
  0x20AC, 0x81, 0x201A, 0x0192, 0x201E, 0x2026, 0x2020, 0x2021, 0x02C6, 0x2030, 0x0160, 0x2039,
  0x0152, 0x8D, 0x017D, 0x8F, 0x90, 0x2018, 0x2019, 0x201C, 0x201D, 0x2022, 0x2013, 0x2014,
  0x02DC, 0x2122, 0x0161, 0x203A, 0x0153, 0x9D, 0x017E, 0x0178]

/-- The character that a number refers to. -/
def charOfReference (n : Nat) : Char :=
  if n = 0 || n > 0x10FFFF || (0xD800 ≤ n && n ≤ 0xDFFF) then replacement
  else if 0x80 ≤ n && n ≤ 0x9F then Char.ofNat ((legacyCodes[n - 0x80]?).getD n)
  else Char.ofNat n

/-- The digits at the front, after as many characters as `lead` says, and a semicolon behind. -/
def numericReference (isDigit : Char → Bool) (base lead : Nat) (cs : List Char) :
    Option (List Char × Nat) :=
  let digits := cs.takeWhile isDigit
  if digits.isEmpty then none
  else
    let n := digits.foldl (fun n c => (hexDigit? c).elim n (base * n + ·)) 0
    let semicolon := if (cs.drop digits.length).head? = some ';' then 1 else 0
    some ([charOfReference n], lead + digits.length + semicolon)

/-- What the text after an ampersand refers to, and how many characters the reference takes. In
an attribute, a name without semicolon is no reference before an equals sign or a letter. -/
def reference (inAttribute : Bool) : List Char → Option (List Char × Nat)
  | '#' :: 'x' :: rest | '#' :: 'X' :: rest =>
    numericReference (fun c => (hexDigit? c).isSome) 16 2 rest
  | '#' :: rest => numericReference Char.isDigit 10 1 rest
  | cs => do
    let (name, text) ← longestEntity cs
    let joined := match (cs.drop name.length).head? with
      | some c => c == '=' || c.isAlphanum
      | none => false
    if inAttribute && joined && name.getLast? ≠ some ';' then none
    else some (text, name.length)

/-- Replaces every character reference by what it refers to. -/
def decode (inAttribute : Bool) : List Char → List Char
  | [] => []
  | c :: rest =>
    if c = '&' then
      match reference inAttribute rest with
      | some (text, n) => text ++ decode inAttribute (rest.drop n)
      | none => c :: decode inAttribute rest
    else c :: decode inAttribute rest
termination_by cs => cs.length

/-! ### Tags -/

/-- The value of an attribute, and what follows it; nothing if the source ends inside. -/
def attributeValue (cs : List Char) : Option (List Char × List Char) :=
  match cs.dropWhile isSpace with
  | [] => none
  | '"' :: rest => Text.cutAt (· == '"') rest
  | '\'' :: rest => Text.cutAt (· == '\'') rest
  | '>' :: rest => some ([], '>' :: rest)
  | rest =>
    let ends := fun c => isSpace c || c == '>'
    some (rest.takeWhile (!ends ·), rest.dropWhile (!ends ·))

/-- Adds an attribute, unless one of that name is there. -/
def addAttribute (attributes : List Attribute) (name : String) (value : List Char) :
    List Attribute :=
  if attributes.any (·.name == name) then attributes
  else attributes ++ [⟨.none, name, .ofList (decode true (withoutNull value))⟩]

/-- The attributes of a tag, whether it closes itself, and what follows the tag; nothing if the
source ends inside the tag. Every round takes at least one character. -/
def tagRest : (rounds : Nat) → List Attribute → List Char →
    Option (List Attribute × Bool × List Char)
  | 0, _, _ => none
  | rounds + 1, attributes, cs =>
    match cs.dropWhile isSpace with
    | [] => none
    | '>' :: rest => some (attributes, false, rest)
    | '/' :: '>' :: rest => some (attributes, true, rest)
    | '/' :: rest => tagRest rounds attributes rest
    | c :: rest =>
      let ends := fun c => isSpace c || c == '/' || c == '>' || c == '='
      let name := nameOf (c :: rest.takeWhile (!ends ·))
      let rest := rest.dropWhile (!ends ·)
      match rest.dropWhile isSpace with
      | '=' :: rest => do
        let (value, rest) ← attributeValue rest
        tagRest rounds (addAttribute attributes name value) rest
      | _ => tagRest rounds (addAttribute attributes name []) rest

/-- The tag whose name begins the text, and what follows it. -/
def tag (cs : List Char) : Option (Tag × List Char) :=
  let ends := fun c => isSpace c || c == '/' || c == '>'
  let name := cs.takeWhile (!ends ·)
  (tagRest (cs.length + 1) [] (cs.drop name.length)).map fun (attributes, selfClosing, rest) =>
    (⟨nameOf name, attributes, selfClosing⟩, rest)

/-! ### Comments and declarations -/

/-- What follows `lead` at the front of the text, letters compared without case. -/
def afterFolded? (lead : String) (cs : List Char) : Option (List Char) :=
  let n := lead.length
  if (cs.take n).map Char.toLower = lead.toList then some (cs.drop n) else none

/-- Everything before the first of some marks, and what follows that mark. -/
def upToMark (marks : List String) : List Char → List Char × List Char
  | [] => ([], [])
  | c :: rest =>
    match marks.findSome? fun mark => Text.after? mark.toList (c :: rest) with
    | some after => ([], after)
    | none =>
      let (content, after) := upToMark marks rest
      (c :: content, after)

/-- A comment whose opening has been read. -/
def comment (cs : List Char) : List Char × List Char :=
  match cs with
  | '>' :: rest => ([], rest)
  | '-' :: '>' :: rest => ([], rest)
  | cs => upToMark ["-->", "--!>"] cs

/-- Everything up to the next closing angle, and what follows it. -/
def upToAngle (cs : List Char) : List Char × List Char :=
  (Text.cutAt (· == '>') cs).getD (cs, [])

/-- A quoted identifier of a document type: its text, whether it was cut short, what follows. -/
def quotedId (quote : Char) (cs : List Char) : List Char × Bool × List Char :=
  let content := cs.takeWhile fun c => c != quote && c != '>'
  match cs.drop content.length with
  | c :: rest => (withoutNull content, c != quote, if c = quote then rest else c :: rest)
  | [] => (withoutNull content, true, [])

/-- The identifier at the front of the text, if it is quoted. -/
def quotedId? (cs : List Char) : Option (List Char × Bool × List Char) :=
  match cs with
  | '"' :: rest => some (quotedId '"' rest)
  | '\'' :: rest => some (quotedId '\'' rest)
  | _ => none

/-- A document type declaration whose keyword has been read. -/
def doctype (cs : List Char) : Doctype × List Char :=
  let cs := cs.dropWhile isSpace
  let ends := fun c => isSpace c || c == '>'
  let name := cs.takeWhile (!ends ·)
  let cs := (cs.drop name.length).dropWhile isSpace
  let d : Doctype := ⟨if name.isEmpty then none else some (nameOf name), none, none, name.isEmpty⟩
  /- Skips to the end of the declaration; a source that ends before is broken. -/
  let finish (d : Doctype) (cs : List Char) : Doctype × List Char :=
    match Text.cutAt (· == '>') cs with
    | some (_, rest) => (d, rest)
    | none => ({ d with broken := true }, [])
  let system (d : Doctype) (required : Bool) (cs : List Char) : Doctype × List Char :=
    match quotedId? (cs.dropWhile isSpace) with
    | some (content, cut, rest) =>
      finish { d with systemId := some (.ofList content), broken := d.broken || cut } rest
    | none =>
      let closed := (cs.dropWhile isSpace).head? = some '>'
      finish { d with broken := d.broken || required || !closed } cs
  match afterFolded? "public" cs, afterFolded? "system" cs with
  | some cs, _ =>
    match quotedId? (cs.dropWhile isSpace) with
    | some (content, cut, rest) =>
      system { d with publicId := some (.ofList content), broken := d.broken || cut } false rest
    | none => finish { d with broken := true } cs
  | none, some cs => system d true cs
  | none, none =>
    match cs with
    | '>' :: rest => (d, rest)
    | cs => finish { d with broken := true } cs

/-! ### Text up to an end tag -/

/-- Whether the text begins with the end tag of that name. -/
def startsEndTag (name : String) (cs : List Char) : Bool :=
  match afterFolded? ("</" ++ name) cs with
  | some (c :: _) => isSpace c || c == '/' || c == '>'
  | _ => false

/-- Everything before the end tag of that name, and the rest. -/
def beforeEndTag (name : String) : List Char → List Char × List Char
  | [] => ([], [])
  | c :: rest =>
    if startsEndTag name (c :: rest) then ([], c :: rest)
    else
      let (content, after) := beforeEndTag name rest
      (c :: content, after)

/-- What hides an end tag of a script. -/
inductive ScriptCover where
  | none
  /-- Inside a comment. -/
  | comment
  /-- Inside a script inside a comment. -/
  | nested
  deriving DecidableEq, Repr

/-- Whether the text begins with a tag of that name, `opening` being how the tag starts. -/
def startsScriptTag (opening : String) (cs : List Char) : Bool :=
  match afterFolded? (opening ++ "script") cs with
  | some (c :: _) => isSpace c || c == '/' || c == '>'
  | _ => false

/-- The cover after the text at hand has lost its first character. -/
def ScriptCover.next (cover : ScriptCover) (cs : List Char) : ScriptCover :=
  match cover with
  | .none => if (Text.after? "<!--".toList cs).isSome then .comment else .none
  | .comment =>
    if (Text.after? "-->".toList cs).isSome then .none
    else if startsScriptTag "<" cs then .nested
    else .comment
  | .nested =>
    if (Text.after? "-->".toList cs).isSome then .none
    else if startsScriptTag "</" cs then .comment
    else .nested

/-- Everything before the end tag of a script that nothing covers, or that only a comment covers,
and the rest. -/
def beforeScriptEnd (name : String) (cover : ScriptCover) : List Char → List Char × List Char
  | [] => ([], [])
  | c :: rest =>
    if cover ≠ .nested && startsEndTag name (c :: rest) then ([], c :: rest)
    else
      let (content, after) := beforeScriptEnd name (cover.next (c :: rest)) rest
      (c :: content, after)

/-! ### The next tokens -/

/-- Tokens for what follows an opening angle, and the rest. Markup in which the source ends gives
no token. -/
def markupTokens (cdata : Bool) (cs : List Char) : List Token × List Char :=
  let bogus (cs : List Char) : List Token × List Char :=
    let (content, rest) := upToAngle cs
    ([.comment (.ofList (withoutNull content))], rest)
  match cs with
  | '!' :: rest =>
    match Text.after? "--".toList rest, afterFolded? "doctype" rest,
      Text.after? "[CDATA[".toList rest with
    | some rest, _, _ =>
      let (content, rest) := comment rest
      ([.comment (.ofList (withoutNull content))], rest)
    | none, some rest, _ =>
      let (d, rest) := doctype rest
      ([.doctype d], rest)
    | none, none, some inside =>
      if cdata then
        let (content, rest) := upToMark ["]]>"] inside
        (textTokens (withoutNull content), rest)
      else bogus rest
    | none, none, none => bogus rest
  | '?' :: rest => bogus ('?' :: rest)
  | '/' :: '>' :: rest => ([], rest)
  | '/' :: c :: rest =>
    if c.isAlpha then
      match tag (c :: rest) with
      | some (t, rest) => ([.endTag t], rest)
      | none => ([], [])
    else bogus (c :: rest)
  | c :: rest =>
    if c.isAlpha then
      match tag (c :: rest) with
      | some (t, rest) => ([.startTag t], rest)
      | none => ([], [])
    else (textTokens ['<'], c :: rest)
  | [] => (textTokens ['<'], [])

/-- The end tag at the front of the text. -/
def endTagTokens (cs : List Char) : List Token × List Char :=
  match tag (cs.drop 2) with
  | some (t, rest) => ([.endTag t], rest)
  | none => ([], [])

/-- The next tokens of a source and the rest of it. `cdata` tells whether character data sections
are allowed. -/
def ReadingMode.next (mode : ReadingMode) (cdata : Bool) (cs : List Char) :
    List Token × List Char :=
  let upTo (decoded : List Char → List Char) (found : List Char × List Char) :=
    if found.1.isEmpty then endTagTokens found.2
    else (textTokens (decoded (withoutNull found.1)), found.2)
  match mode with
  | .plaintext => (textTokens (withoutNull cs), [])
  | .escapable name => upTo (decode false) (beforeEndTag name cs)
  | .raw name => upTo id (beforeEndTag name cs)
  | .script name => upTo id (beforeScriptEnd name .none cs)
  | .markup =>
    match cs with
    | [] => ([], [])
    | '<' :: rest => markupTokens cdata rest
    | '\x00' :: rest => ([.null], rest)
    | cs =>
      let plain := fun c => c != '<' && c != '\x00'
      (textTokens (decode false (cs.takeWhile plain)), cs.dropWhile plain)

end PageLogic.Html
