import PageLogic.Html.Insertion.Body
/-!
The rules of selections, which hold options and little else.
-/
namespace PageLogic.Html.Builder

def inSelect (b : Builder) (token : Token) : Step :=
  let popIf (name : String) (b : Builder) := if b.currentIsHtml name then b.pop else b
  match token with
  | .space s | .text s => (b.insertText s).done
  | .comment c => (b.insertComment c).done
  | .startTag t =>
    if t.name == "html" then (b.rootTag t).done
    else if t.name == "option" then ((popIf "option" b).openTag t).done
    else if t.name == "optgroup" then ((popIf "optgroup" (popIf "option" b)).openTag t).done
    else if t.name == "select" then
      (if b.inScope Name.boundsSelect ["select"] then (b.popThroughHtml "select").resetMode
        else b).done
    else if t.isAny ["input", "keygen", "textarea"] then
      if b.inScope Name.boundsSelect ["select"] then
        let b := b.popThroughHtml "select"
        b.again b.modeOfStack
      else b.done
    else if t.isAny ["script", "template"] then (b.headStart t).done
    else b.done
  | .endTag t =>
    if t.name == "optgroup" then
      let nested := b.currentIsHtml "option" &&
        (b.stack[1]?).any fun n => Name.html ["optgroup"] (b.name n)
      (popIf "optgroup" (if nested then b.pop else b)).done
    else if t.name == "option" then (popIf "option" b).done
    else if t.name == "select" then
      (if b.inScope Name.boundsSelect ["select"] then (b.popThroughHtml "select").resetMode
        else b).done
    else if t.name == "template" then b.closeTemplate.done
    else b.done
  | .eof => b.bodyEnd
  | .null | .doctype _ => b.done

def inSelectInTable (b : Builder) (token : Token) : Step :=
  let names := ["caption", "table", "tbody", "tfoot", "thead", "tr", "td", "th"]
  let close :=
    let b := b.popThroughHtml "select"
    b.again b.modeOfStack
  match token with
  | .startTag t => if t.isAny names then close else b.inSelect token
  | .endTag t =>
    if t.isAny names then if b.inScope Name.boundsTable [t.name] then close else b.done
    else b.inSelect token
  | _ => b.inSelect token

end PageLogic.Html.Builder
