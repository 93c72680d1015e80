import PageLogic.Html.Insertion.Body
/-!
The rules for what follows the body, and for pages that have a frameset in place of it.
-/
namespace PageLogic.Html.Builder

def afterBody (b : Builder) (token : Token) : Step :=
  match token with
  | .space s => (b.bodySpace s).done
  | .comment c => (b.insertCommentUnder b.outermost c).done
  | .startTag t => if t.name == "html" then (b.rootTag t).done else b.again .inBody
  | .endTag t => if t.name == "html" then (b.withMode .afterAfterBody).done else b.again .inBody
  | .eof => b.done
  | _ => b.again .inBody

def inFrameset (b : Builder) : Token → Step
  | .space s => (b.insertText s).done
  | .comment c => (b.insertComment c).done
  | .startTag t =>
    (if t.name == "html" then b.rootTag t
    else if t.name == "frameset" then b.openTag t
    else if t.name == "frame" then b.voidTag t
    else if t.name == "noframes" then b.headStart t
    else b).done
  | .endTag t =>
    if t.name == "frameset" && b.stack.length != 1 then
      let b := b.pop
      (if b.currentIsHtml "frameset" then b else b.withMode .afterFrameset).done
    else b.done
  | _ => b.done

def afterFrameset (b : Builder) : Token → Step
  | .space s => (b.insertText s).done
  | .comment c => (b.insertComment c).done
  | .startTag t =>
    (if t.name == "html" then b.rootTag t
    else if t.name == "noframes" then b.headStart t
    else b).done
  | .endTag t => (if t.name == "html" then b.withMode .afterAfterFrameset else b).done
  | _ => b.done

def afterAfterBody (b : Builder) (token : Token) : Step :=
  match token with
  | .space s => (b.bodySpace s).done
  | .comment c => (b.insertCommentUnder 0 c).done
  | .startTag t => if t.name == "html" then (b.rootTag t).done else b.again .inBody
  | .eof => b.done
  | _ => b.again .inBody

def afterAfterFrameset (b : Builder) : Token → Step
  | .space s => (b.bodySpace s).done
  | .comment c => (b.insertCommentUnder 0 c).done
  | .startTag t =>
    (if t.name == "html" then b.rootTag t
    else if t.name == "noframes" then b.headStart t
    else b).done
  | _ => b.done

end PageLogic.Html.Builder
