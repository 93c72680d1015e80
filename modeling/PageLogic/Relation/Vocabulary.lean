import PageLogic.Goal
/-!
Closed vocabularies of tag and attribute names. A page can be asked for a named attribute but
cannot list them, so an unknown attribute name ranges over `knownAttributes`, in that order.
-/
namespace PageLogic.Relation

def knownTags : List String := [
  "a", "abbr", "address", "area", "article", "aside", "audio", "b", "base", "bdi", "bdo",
  "blockquote", "body", "br", "button", "canvas", "caption", "cite", "code", "col",
  "colgroup", "data", "datalist", "dd", "del", "details", "dfn", "dialog", "div", "dl", "dt",
  "em", "embed", "fieldset", "figcaption", "figure", "footer", "form", "h1", "h2", "h3", "h4",
  "h5", "h6", "head", "header", "hgroup", "hr", "html", "i", "iframe", "img", "input", "ins",
  "kbd", "label", "legend", "li", "link", "main", "map", "mark", "menu", "meta", "meter",
  "nav", "noscript", "object", "ol", "optgroup", "option", "output", "p", "param", "picture",
  "pre", "progress", "q", "rp", "rt", "ruby", "s", "samp", "script", "search", "section",
  "select", "slot", "small", "source", "span", "strong", "style", "sub", "summary", "sup",
  "table", "tbody", "td", "template", "textarea", "tfoot", "th", "thead", "time", "title",
  "tr", "track", "u", "ul", "var", "video", "wbr"]

def knownAttributes : List String := [
  "id", "class", "name", "type", "value", "href", "src", "alt", "title", "style", "lang",
  "dir", "hidden", "tabindex", "accesskey", "role", "disabled", "readonly", "required",
  "checked", "selected", "multiple", "placeholder", "maxlength", "minlength", "min", "max",
  "step", "pattern", "size", "rows", "cols", "wrap", "for", "form", "action", "method",
  "enctype", "target", "rel", "download", "media", "width", "height", "colspan", "rowspan",
  "headers", "scope", "label", "autocomplete", "autofocus", "contenteditable", "draggable",
  "spellcheck", "translate", "content", "charset", "http-equiv", "async", "defer",
  "crossorigin", "integrity", "loading", "srcset", "sizes", "usemap", "controls", "autoplay",
  "loop", "muted", "poster", "preload", "datetime", "cite", "open", "list", "accept",
  "aria-label", "aria-hidden", "aria-describedby", "aria-labelledby", "aria-expanded",
  "aria-selected", "aria-checked", "aria-disabled"]

/-- The term is the name of a known tag. -/
def knownTag (t : Term) : Goal := .memberOf t (knownTags.map .str)

/-- The term is the name of a known attribute. -/
def knownAttribute (t : Term) : Goal := .memberOf t (knownAttributes.map .str)

end PageLogic.Relation
