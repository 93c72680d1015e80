import PageLogic.Html.Insertion.Foreign
/-!
The rules of the body, of elements that hold only text, and of templates, whose content follows the
rules of the mode that suits its first tag.
-/
namespace PageLogic.Html.Builder

def bodyText (b : Builder) (s : String) : Builder :=
  { b.reopenFormatting with framesetAllowed := false }.insertText s

def bodySpace (b : Builder) (s : String) : Builder :=
  b.reopenFormatting.insertText s

/-- The end of the source while a template is open: the template is closed. -/
def templateEnd (b : Builder) : Step :=
  if b.hasOpen "template" then
    let b := (b.popThroughHtml "template").clearToMarker
    let b := { b with templateModes := b.templateModes.tail }
    b.again b.modeOfStack
  else b.done

def bodyEnd (b : Builder) : Step :=
  if b.templateModes.isEmpty then b.done else b.templateEnd

/-- Closes the item of a list, if one is open that the new item does not lie inside of. -/
def closeItem (b : Builder) (names : List String) : Builder :=
  go b.stack
where
  go : List Nat → Builder
    | [] => b
    | n :: rest =>
      if Name.html names (b.name n) then
        (b.closeImpliedExcept (b.name n).2).popThroughHtml (b.name n).2
      else if (b.name n).isSpecial && !Name.html ["address", "div", "p"] (b.name n) then b
      else go rest

/-- The body, if it is open. -/
def body? (b : Builder) : Option Nat :=
  match b.stack.reverse with
  | _ :: n :: _ => if Name.html ["body"] (b.name n) then some n else none
  | _ => none

/-- A second form of a link closes the first. -/
def closeLink (b : Builder) : Builder :=
  match b.reachable.find? fun (n, _) => Name.html ["a"] (b.name n) with
  | some (n, _) => ((b.closeFormatting "a").forgetFormatting n).removeFromStack n
  | none => b

def noFrameset (b : Builder) : Builder := { b with framesetAllowed := false }

def blockNames : List String := [
  "address", "article", "aside", "blockquote", "center", "details", "dialog", "dir", "div", "dl",
  "fieldset", "figcaption", "figure", "footer", "header", "hgroup", "main", "menu", "nav", "ol",
  "p", "section", "summary", "ul"]

def formattingNames : List String := [
  "b", "big", "code", "em", "font", "i", "s", "small", "strike", "strong", "tt", "u"]

def tableNames : List String := [
  "caption", "col", "colgroup", "frame", "head", "tbody", "td", "tfoot", "th", "thead", "tr"]

def bodyStart (b : Builder) (t : Tag) : Builder :=
  if t.name == "html" then b.rootTag t
  else if t.isAny headNames then b.headStart t
  else if t.name == "body" then
    match b.body? with
    | some n =>
      if b.hasOpen "template" then b
      else { b.noFrameset with arena := b.arena.addMissing n t.attributes }
    | none => b
  else if t.name == "frameset" then
    match b.framesetAllowed, b.body? with
    | true, some n =>
      { b with arena := b.arena.detach n, stack := b.stack.drop (b.stack.length - 1) }.openTag t
        |>.withMode .inFrameset
    | _, _ => b
  else if t.isAny blockNames then b.closeParagraphInScope.openTag t
  else if t.isAny ["h1", "h2", "h3", "h4", "h5", "h6"] then
    let b := b.closeParagraphInScope
    (if b.currentIs Name.isHeading then b.pop else b).openTag t
  else if t.isAny ["pre", "listing"] then
    { b.closeParagraphInScope.openTag t with skipLineFeed := true, framesetAllowed := false }
  else if t.name == "form" then
    if b.form.isSome && !b.hasOpen "template" then b
    else
      let (n, b) := b.closeParagraphInScope.insertOpen .html t.name t.attributes
      if b.hasOpen "template" then b else { b with form := some n }
  else if t.name == "li" then (b.noFrameset.closeItem ["li"]).closeParagraphInScope.openTag t
  else if t.isAny ["dd", "dt"] then
    (b.noFrameset.closeItem ["dd", "dt"]).closeParagraphInScope.openTag t
  else if t.name == "plaintext" then
    { b.closeParagraphInScope.openTag t with reading := .plaintext }
  else if t.name == "button" then
    let b :=
      if b.inScope Name.boundsScope ["button"] then b.closeImplied.popThroughHtml "button" else b
    (b.reopenFormatting.openTag t).noFrameset
  else if t.name == "a" then b.closeLink.reopenFormatting.openFormatting t
  else if t.isAny formattingNames then b.reopenFormatting.openFormatting t
  else if t.name == "nobr" then
    let b := b.reopenFormatting
    let b :=
      if b.inScope Name.boundsScope ["nobr"] then (b.closeFormatting "nobr").reopenFormatting else b
    b.openFormatting t
  else if t.isAny ["applet", "marquee", "object"] then
    (b.reopenFormatting.openTag t).pushMarker.noFrameset
  else if t.name == "table" then
    ((if b.legacy then b else b.closeParagraphInScope).openTag t).noFrameset.withMode .inTable
  else if t.isAny ["area", "br", "embed", "img", "image", "keygen", "wbr", "input"] then
    let t := if t.name == "image" then { t with name := "img" } else t
    let b := b.reopenFormatting.voidTag t
    if t.name == "input" && t.isHiddenField then b else b.noFrameset
  else if t.isAny ["param", "source", "track"] then b.voidTag t
  else if t.name == "hr" then (b.closeParagraphInScope.voidTag t).noFrameset
  else if t.name == "textarea" then
    { b.noFrameset with skipLineFeed := true }.openText t (.escapable t.name)
  else if t.name == "xmp" then
    b.closeParagraphInScope.reopenFormatting.noFrameset.openText t (.raw t.name)
  else if t.name == "iframe" then b.noFrameset.openText t (.raw t.name)
  else if t.isAny ["noembed", "noscript"] then b.openText t (.raw t.name)
  else if t.name == "select" then
    let inTable := match b.mode with
      | .inTable | .inCaption | .inTableBody | .inRow | .inCell => true
      | _ => false
    (b.reopenFormatting.openTag t).noFrameset.withMode
      (if inTable then .inSelectInTable else .inSelect)
  else if t.isAny ["optgroup", "option"] then
    (if b.currentIsHtml "option" then b.pop else b).reopenFormatting.openTag t
  else if t.isAny ["rb", "rtc"] then
    (if b.inScope Name.boundsScope ["ruby"] then b.closeImplied else b).openTag t
  else if t.isAny ["rp", "rt"] then
    (if b.inScope Name.boundsScope ["ruby"] then b.closeImpliedExcept "rtc" else b).openTag t
  else if t.name == "math" then b.openForeign .mathml t
  else if t.name == "svg" then b.openForeign .svg t
  else if t.isAny tableNames then b
  else b.reopenFormatting.openTag t

/-- The end tag of the form that is open. -/
def formEnd (b : Builder) : Builder :=
  if b.hasOpen "template" then
    if b.inScope Name.boundsScope ["form"] then b.closeImplied.popThroughHtml "form" else b
  else
    match b.form with
    | none => b
    | some n =>
      let b := { b with form := none }
      if b.inScopeOf Name.boundsScope (· == n) then b.closeImplied.removeFromStack n else b

def bodyEndTag (b : Builder) (t : Tag) : Step :=
  if t.name == "template" then b.closeTemplate.done
  else if t.name == "body" then
    (if b.inScope Name.boundsScope ["body"] then b.withMode .afterBody else b).done
  else if t.name == "html" then
    if b.inScope Name.boundsScope ["body"] then b.again .afterBody else b.done
  else if (t.isAny blockNames && t.name != "p") || t.isAny ["button", "listing", "pre"] then
    (if b.inScope Name.boundsScope [t.name] then b.closeImplied.popThroughHtml t.name else b).done
  else if t.name == "form" then b.formEnd.done
  else if t.name == "p" then
    (if b.inScope Name.boundsButton ["p"] then b else b.openImplied "p").closeParagraph.done
  else if t.isAny ["li", "dd", "dt"] then
    let bounds := if t.name == "li" then Name.boundsListItem else Name.boundsScope
    (if b.inScope bounds [t.name] then (b.closeImpliedExcept t.name).popThroughHtml t.name
      else b).done
  else if t.isAny ["h1", "h2", "h3", "h4", "h5", "h6"] then
    (if b.inScopeOf Name.boundsScope fun n => (b.name n).isHeading then
      b.closeImplied.popThrough Name.isHeading
    else b).done
  else if t.name == "a" || t.name == "nobr" || t.isAny formattingNames then
    (b.closeFormatting t.name).done
  else if t.isAny ["applet", "marquee", "object"] then
    (if b.inScope Name.boundsScope [t.name] then
      (b.closeImplied.popThroughHtml t.name).clearToMarker
    else b).done
  else if t.name == "br" then (b.bodyStart ⟨"br", [], false⟩).done
  else (b.closeGeneric t.name).done

def inBody (b : Builder) : Token → Step
  | .space s => (b.bodySpace s).done
  | .text s => (b.bodyText s).done
  | .comment c => (b.insertComment c).done
  | .startTag t => (b.bodyStart t).done
  | .endTag t => b.bodyEndTag t
  | .eof => b.bodyEnd
  | .null | .doctype _ => b.done

/-- The content of an element that holds only text. -/
def inText (b : Builder) : Token → Step
  | .space s | .text s => (b.insertText s).done
  | .eof => b.pop.again b.returnMode
  | .endTag _ => (b.pop.withMode b.returnMode).done
  | _ => b.done

/-- Reads the content of a template by the rules of another mode from now on. -/
def templateAs (b : Builder) (mode : Mode) : Step :=
  { b with templateModes := mode :: b.templateModes.tail }.again mode

def inTemplate (b : Builder) (token : Token) : Step :=
  match token with
  | .space _ | .text _ | .comment _ => b.inBody token
  | .startTag t =>
    if t.isAny headNames then (b.headStart t).done
    else if t.isAny ["caption", "colgroup", "tbody", "tfoot", "thead"] then b.templateAs .inTable
    else if t.name == "col" then b.templateAs .inColumnGroup
    else if t.name == "tr" then b.templateAs .inTableBody
    else if t.isAny ["td", "th"] then b.templateAs .inRow
    else b.templateAs .inBody
  | .endTag t => (if t.name == "template" then b.closeTemplate else b).done
  | .eof => b.templateEnd
  | .null | .doctype _ => b.done

end PageLogic.Html.Builder
