import PageLogic.Html.Builder
/-!
What a rule for a token leads to, and the rules for everything in front of the body. A rule may ask
that the token be read again, after it has changed the mode or closed an element.
-/
namespace PageLogic.Html

def Tag.isAny (t : Tag) (names : List String) : Bool :=
  names.contains t.name

/-- Whether a tag is of the type that makes a field invisible. -/
def Tag.isHiddenField (t : Tag) : Bool :=
  t.attributes.any fun a =>
    a.space == .none && a.name == "type" && a.value.toList.map Char.toLower == "hidden".toList

/-- The state after a token, and whether the token is read again. -/
abbrev Step := Builder × Bool

namespace Builder

def done (b : Builder) : Step := (b, false)

def again (b : Builder) (mode : Mode) : Step := ({ b with mode }, true)

def withMode (b : Builder) (mode : Mode) : Builder := { b with mode }

/-- A start tag of the outermost element can only add attributes to it. -/
def rootTag (b : Builder) (t : Tag) : Builder :=
  if b.hasOpen "template" then b
  else { b with arena := b.arena.addMissing b.outermost t.attributes }

/-- Closes the innermost template with all that is open in it. -/
def closeTemplate (b : Builder) : Builder :=
  if b.hasOpen "template" then
    let b := (b.popWhile Name.isImpliedThoroughly).popThroughHtml "template"
    let b := b.clearToMarker
    { b with templateModes := b.templateModes.tail }.resetMode
  else b

def openTemplate (b : Builder) (t : Tag) : Builder :=
  let b := (b.openTag t).pushMarker
  { b with
    framesetAllowed := false
    mode := .inTemplate
    templateModes := .inTemplate :: b.templateModes }

/-- Tags that may stand in the head or anywhere else and are read by the rules of the head. -/
def headStart (b : Builder) (t : Tag) : Builder :=
  if t.isAny ["base", "basefont", "bgsound", "link", "meta"] then b.voidTag t
  else if t.name == "title" then b.openText t (.escapable t.name)
  else if t.isAny ["noframes", "style", "noscript"] then b.openText t (.raw t.name)
  else if t.name == "script" then b.openText t (.script t.name)
  else b.openTemplate t

/-! ### Before the body -/

def initial (b : Builder) : Token → Step
  | .space _ => b.done
  | .comment c => (b.insertCommentUnder 0 c).done
  | _ => { b with legacy := true }.again .beforeHtml

def beforeHtml (b : Builder) (token : Token) : Step :=
  let otherwise := (b.openRoot []).again .beforeHead
  match token with
  | .space _ => b.done
  | .comment c => (b.insertCommentUnder 0 c).done
  | .startTag t =>
    if t.name == "html" then ((b.openRoot t.attributes).withMode .beforeHead).done else otherwise
  | .endTag t => if t.isAny ["head", "body", "html", "br"] then otherwise else b.done
  | _ => otherwise

def beforeHead (b : Builder) (token : Token) : Step :=
  let otherwise :=
    let (n, b) := b.insertOpen .html "head" []
    { b with head := some n }.again .inHead
  match token with
  | .space _ => b.done
  | .comment c => (b.insertComment c).done
  | .startTag t =>
    if t.name == "html" then (b.rootTag t).done
    else if t.name == "head" then
      let (n, b) := b.insertOpen .html "head" t.attributes
      ({ b with head := some n }.withMode .inHead).done
    else otherwise
  | .endTag t => if t.isAny ["head", "body", "html", "br"] then otherwise else b.done
  | _ => otherwise

def headNames : List String := [
  "base", "basefont", "bgsound", "link", "meta", "title", "noframes", "style", "script", "template"]

def inHead (b : Builder) (token : Token) : Step :=
  let otherwise := b.pop.again .afterHead
  match token with
  | .space s => (b.insertText s).done
  | .comment c => (b.insertComment c).done
  | .startTag t =>
    if t.name == "html" then (b.rootTag t).done
    else if t.isAny headNames || t.name == "noscript" then (b.headStart t).done
    else if t.name == "head" then b.done
    else otherwise
  | .endTag t =>
    if t.name == "head" then (b.pop.withMode .afterHead).done
    else if t.isAny ["body", "html", "br"] then otherwise
    else if t.name == "template" then b.closeTemplate.done
    else b.done
  | _ => otherwise

def afterHead (b : Builder) (token : Token) : Step :=
  let otherwise := (b.openImplied "body").again .inBody
  match token with
  | .space s => (b.insertText s).done
  | .comment c => (b.insertComment c).done
  | .startTag t =>
    if t.name == "html" then (b.rootTag t).done
    else if t.name == "body" then
      ({ b.openTag t with framesetAllowed := false }.withMode .inBody).done
    else if t.name == "frameset" then ((b.openTag t).withMode .inFrameset).done
    else if t.isAny headNames then
      match b.head with
      | some head => ((b.push head).headStart t |>.removeFromStack head).done
      | none => (b.headStart t).done
    else if t.name == "head" then b.done
    else otherwise
  | .endTag t =>
    if t.isAny ["body", "html", "br"] then otherwise
    else if t.name == "template" then b.closeTemplate.done
    else b.done
  | _ => otherwise

end Builder

end PageLogic.Html
