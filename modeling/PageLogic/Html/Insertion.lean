import PageLogic.Html.Insertion.Frameset
import PageLogic.Html.Insertion.Selection
import PageLogic.Html.Insertion.Table
/-!
How tokens grow the tree: every mode has its rules, and the content of foreign elements has rules of
its own.
-/
namespace PageLogic.Html.Builder

/-- Reads a token by the rules of a mode. -/
def step (b : Builder) (mode : Mode) (token : Token) : Step :=
  match mode with
  | .initial => b.initial token
  | .beforeHtml => b.beforeHtml token
  | .beforeHead => b.beforeHead token
  | .inHead => b.inHead token
  | .afterHead => b.afterHead token
  | .inBody => b.inBody token
  | .text => b.inText token
  | .inTable => b.inTable token
  | .inTableText => b.inTableText token
  | .inCaption => b.inCaption token
  | .inColumnGroup => b.inColumnGroup token
  | .inTableBody => b.inTableBody token
  | .inRow => b.inRow token
  | .inCell => b.inCell token
  | .inSelect => b.inSelect token
  | .inSelectInTable => b.inSelectInTable token
  | .inTemplate => b.inTemplate token
  | .afterBody => b.afterBody token
  | .inFrameset => b.inFrameset token
  | .afterFrameset => b.afterFrameset token
  | .afterAfterBody => b.afterAfterBody token
  | .afterAfterFrameset => b.afterAfterFrameset token

/-- An end tag closes the foreign element it names; beyond the foreign elements the rules of the
mode decide. -/
def foreignEnd (b : Builder) (t : Tag) : Step :=
  go true b.stack
where
  go (first : Bool) : List Nat → Step
    | [] | [_] => b.done
    | n :: rest =>
      if !first && (b.name n).1 == .html then b.step b.mode (.endTag t)
      else if nameOf (b.name n).2.toList == t.name then { b with stack := rest }.done
      else go false rest

def inForeign (b : Builder) : Token → Step
  | .null => (b.insertText (.singleton replacement)).done
  | .space s => (b.insertText s).done
  | .text s => (b.noFrameset.insertText s).done
  | .comment c => (b.insertComment c).done
  | .startTag t =>
    let styled := t.name == "font" && t.attributes.any fun a =>
      a.space == .none && ["color", "face", "size"].contains a.name
    if t.isAny breakoutNames || styled then b.leaveForeign else (b.foreignStart t).done
  | .endTag t => b.foreignEnd t
  | .eof | .doctype _ => b.done

/-- Reads a token, again as often as its rules ask for it, at most `rounds` times. -/
def rounds : (rounds : Nat) → Builder → Token → Builder
  | 0, b, _ => b
  | n + 1, b, token =>
    let (b, more) := if b.readsForeign token then b.inForeign token else b.step b.mode token
    if more then rounds n b token else b

/-- A document type declaration counts only at the front. -/
def doctype (b : Builder) (legacy : Bool) : Builder :=
  if b.mode = .initial then { b with legacy, mode := .beforeHtml } else b

/-- The token without the line feed at its front. -/
def withoutLineFeed : Token → Token
  | .space s => .space (.ofList (if s.toList.head? = some '\n' then s.toList.tail else s.toList))
  | token => token

/-- Whether the next characters may be a character data section. -/
def allowsCharacterData (b : Builder) : Bool :=
  b.current?.any fun n => (b.name n).1 != .html

end PageLogic.Html.Builder
