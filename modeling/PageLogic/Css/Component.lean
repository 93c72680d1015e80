import PageLogic.Css.Token
/-!
Tokens nested by their brackets. The end of the text closes every bracket that is still open; a
closing bracket that closes nothing stays behind as a token.
-/
namespace PageLogic.Css

inductive Component where
  | token (t : Token)
  | function (name : String) (content : List Component)
  /-- What stands between brackets, named by the opening one. -/
  | block (bracket : Char) (content : List Component)
  deriving Repr

/-- A bracket that is open, and what was read before it, the newest first. -/
structure OpenBracket where
  bracket : Char
  /-- The name in front of the bracket, if it belongs to a function. -/
  function : Option String
  before : List Component
  deriving Repr

namespace OpenBracket

def closedBy (b : OpenBracket) (c : Char) : Bool :=
  match b.bracket with
  | '(' => c == ')'
  | '[' => c == ']'
  | _ => c == '\x7d'

/-- Everything up to now once the bracket is closed, its content being given newest first. -/
def close (b : OpenBracket) (content : List Component) : List Component :=
  match b.function with
  | some name => .function name content.reverse :: b.before
  | none => .block b.bracket content.reverse :: b.before

end OpenBracket

namespace Component

/-- Nests the rest of the tokens, given the open brackets, the innermost first, and what was read
since the last of them, the newest first. -/
def nestFrom : List OpenBracket → List Component → List Token → List Component
  | opened, now, [] => (opened.foldl (fun now b => b.close now) now).reverse
  | opened, now, .function name :: rest => nestFrom (⟨'(', some name, now⟩ :: opened) [] rest
  | opened, now, .opening c :: rest => nestFrom (⟨c, none, now⟩ :: opened) [] rest
  | [], now, .closing c :: rest => nestFrom [] (.token (.closing c) :: now) rest
  | b :: opened, now, .closing c :: rest =>
    if b.closedBy c then nestFrom opened (b.close now) rest
    else nestFrom (b :: opened) (.token (.closing c) :: now) rest
  | opened, now, t :: rest => nestFrom opened (.token t :: now) rest

def nest (tokens : List Token) : List Component :=
  nestFrom [] [] tokens

/-- The components of a text. -/
def ofText (text : String) : List Component :=
  nest (Token.all text)

def isSpace : Component → Bool
  | .token .space => true
  | _ => false

def isComma : Component → Bool
  | .token .comma => true
  | _ => false

end Component

end PageLogic.Css
