import PageLogic.Html.Insertion.Body
/-!
The rules of tables and their parts. What does not belong into a table is placed in front of it.
-/
namespace PageLogic.Html.Builder

/-- Reads a token by the rules of the body, with nodes placed outside the table. -/
def fostered (b : Builder) (token : Token) : Step :=
  let (b, more) := { b with fosterParenting := true }.inBody token
  ({ b with fosterParenting := false }, more)

/-- Text among the parts of a table waits until it is known to be blank. -/
def tableText (b : Builder) (token : Token) : Step :=
  if b.currentIs Name.isTablePart then { b with returnMode := b.mode }.again .inTableText
  else b.fostered token

def inTable (b : Builder) (token : Token) : Step :=
  match token with
  | .space _ | .text _ | .null => b.tableText token
  | .comment c => (b.insertComment c).done
  | .startTag t =>
    if t.name == "caption" then
      (((b.popTo Name.boundsTable).pushMarker.openTag t).withMode .inCaption).done
    else if t.name == "colgroup" then
      (((b.popTo Name.boundsTable).openTag t).withMode .inColumnGroup).done
    else if t.name == "col" then
      ((b.popTo Name.boundsTable).openImplied "colgroup").again .inColumnGroup
    else if t.isAny ["tbody", "tfoot", "thead"] then
      (((b.popTo Name.boundsTable).openTag t).withMode .inTableBody).done
    else if t.isAny ["td", "th", "tr"] then
      ((b.popTo Name.boundsTable).openImplied "tbody").again .inTableBody
    else if t.name == "table" then
      if b.inScope Name.boundsTable ["table"] then
        let b := b.popThroughHtml "table"
        b.again b.modeOfStack
      else b.done
    else if t.isAny ["style", "script", "template"] then (b.headStart t).done
    else if t.name == "input" && t.isHiddenField then (b.voidTag t).done
    else if t.name == "form" then
      if b.form.isNone && !b.hasOpen "template" then
        let (n, b) := b.insertVoid .html t.name t.attributes
        { b with form := some n }.done
      else b.done
    else b.fostered token
  | .endTag t =>
    if t.name == "table" then
      if b.inScope Name.boundsTable ["table"] then (b.popThroughHtml "table").resetMode.done
      else b.done
    else if t.isAny ["body", "caption", "col", "colgroup", "html", "tbody", "td", "tfoot", "th",
        "thead", "tr"] then b.done
    else if t.name == "template" then b.closeTemplate.done
    else b.fostered token
  | .eof => b.bodyEnd
  | .doctype _ => b.done

/-- Places the text that waited: blank text where it stood, other text outside the table. -/
def flushTableText (b : Builder) : Builder :=
  let pending := b.pendingText.reverse
  let b := { b with pendingText := [] }
  let blank := pending.all fun s => s.toList.all isSpace
  pending.foldl (fun b s =>
    if blank then b.insertText s
    else
      let token := if s.toList.all isSpace then Token.space s else .text s
      (b.fostered token).1) b

def inTableText (b : Builder) : Token → Step
  | .null => b.done
  | .space s | .text s => { b with pendingText := s :: b.pendingText }.done
  | _ => b.flushTableText.again b.returnMode

def inCaption (b : Builder) (token : Token) : Step :=
  let close :=
    (b.closeImplied.popThroughHtml "caption").clearToMarker
  let isOpen := b.inScope Name.boundsTable ["caption"]
  match token with
  | .startTag t =>
    if t.isAny ["caption", "col", "colgroup", "tbody", "td", "tfoot", "th", "thead", "tr"] then
      if isOpen then close.again .inTable else b.done
    else b.inBody token
  | .endTag t =>
    if t.name == "caption" then (if isOpen then close.withMode .inTable else b).done
    else if t.name == "table" then if isOpen then close.again .inTable else b.done
    else if t.isAny ["body", "col", "colgroup", "html", "tbody", "td", "tfoot", "th", "thead",
        "tr"] then b.done
    else b.inBody token
  | _ => b.inBody token

def inColumnGroup (b : Builder) (token : Token) : Step :=
  let otherwise := if b.currentIsHtml "colgroup" then b.pop.again .inTable else b.done
  match token with
  | .space s => (b.insertText s).done
  | .comment c => (b.insertComment c).done
  | .startTag t =>
    if t.name == "html" then (b.rootTag t).done
    else if t.name == "col" then (b.voidTag t).done
    else if t.name == "template" then (b.headStart t).done
    else otherwise
  | .endTag t =>
    if t.name == "colgroup" then
      (if b.currentIsHtml "colgroup" then b.pop.withMode .inTable else b).done
    else if t.name == "col" then b.done
    else if t.name == "template" then b.closeTemplate.done
    else otherwise
  | .eof => b.bodyEnd
  | _ => otherwise

/-- The elements that may hold rows. -/
def holdsRows : Name → Bool := Name.html ["tbody", "tfoot", "thead", "template", "html"]

/-- The elements that may hold cells. -/
def holdsCells : Name → Bool := Name.html ["tr", "template", "html"]

def inTableBody (b : Builder) (token : Token) : Step :=
  let close :=
    if b.inScope Name.boundsTable ["table", "tbody", "tfoot"] then
      (b.popTo holdsRows).pop.again .inTable
    else b.done
  match token with
  | .startTag t =>
    if t.name == "tr" then (((b.popTo holdsRows).openTag t).withMode .inRow).done
    else if t.isAny ["th", "td"] then ((b.popTo holdsRows).openImplied "tr").again .inRow
    else if t.isAny ["caption", "col", "colgroup", "tbody", "tfoot", "thead"] then close
    else b.inTable token
  | .endTag t =>
    if t.isAny ["tbody", "tfoot", "thead"] then
      (if b.inScope Name.boundsTable [t.name] then (b.popTo holdsRows).pop.withMode .inTable
        else b).done
    else if t.name == "table" then close
    else if t.isAny ["body", "caption", "col", "colgroup", "html", "td", "th", "tr"] then b.done
    else b.inTable token
  | _ => b.inTable token

def inRow (b : Builder) (token : Token) : Step :=
  let isOpen := b.inScope Name.boundsTable ["tr"]
  let close := (b.popTo holdsCells).pop
  match token with
  | .startTag t =>
    if t.isAny ["th", "td"] then
      (((b.popTo holdsCells).openTag t).withMode .inCell).pushMarker.done
    else if t.isAny ["caption", "col", "colgroup", "tbody", "tfoot", "thead", "tr"] then
      if isOpen then close.again .inTableBody else b.done
    else b.inTable token
  | .endTag t =>
    if t.name == "tr" then (if isOpen then close.withMode .inTableBody else b).done
    else if t.name == "table" then if isOpen then close.again .inTableBody else b.done
    else if t.isAny ["tbody", "tfoot", "thead"] then
      if b.inScope Name.boundsTable [t.name] && isOpen then close.again .inTableBody else b.done
    else if t.isAny ["body", "caption", "col", "colgroup", "html", "td", "th"] then b.done
    else b.inTable token
  | _ => b.inTable token

/-- Closes the cell of a table. -/
def closeCell (b : Builder) : Builder :=
  (b.closeImplied.popThrough (Name.html ["td", "th"])).clearToMarker

def inCell (b : Builder) (token : Token) : Step :=
  match token with
  | .startTag t =>
    if t.isAny ["caption", "col", "colgroup", "tbody", "td", "tfoot", "th", "thead", "tr"] then
      if b.inScope Name.boundsTable ["td", "th"] then b.closeCell.again .inRow else b.done
    else b.inBody token
  | .endTag t =>
    if t.isAny ["td", "th"] then
      (if b.inScope Name.boundsTable [t.name] then
        (b.closeImplied.popThroughHtml t.name).clearToMarker.withMode .inRow
      else b).done
    else if t.isAny ["body", "caption", "col", "colgroup", "html"] then b.done
    else if t.isAny ["table", "tbody", "tfoot", "thead", "tr"] then
      if b.inScope Name.boundsTable [t.name] then b.closeCell.again .inRow else b.done
    else b.inBody token
  | _ => b.inBody token

end PageLogic.Html.Builder
