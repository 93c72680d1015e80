import PageLogic.Html.Insertion.Head
/-!
Elements of drawings and formulas inside a page: the names that keep their capitals, and where such
content begins and ends.
-/
namespace PageLogic.Html.Builder

/-- Replaces the names that a table lists. -/
def rename (table : List (String × String)) (name : String) : String :=
  (table.lookup name).getD name

/-- Attributes of drawings whose names hold capitals. -/
def drawingAttributes : List (String × String) := [
  "attributeName", "attributeType", "baseFrequency", "baseProfile", "calcMode", "clipPathUnits",
  "diffuseConstant", "edgeMode", "filterUnits", "glyphRef", "gradientTransform", "gradientUnits",
  "kernelMatrix", "kernelUnitLength", "keyPoints", "keySplines", "keyTimes", "lengthAdjust",
  "limitingConeAngle", "markerHeight", "markerUnits", "markerWidth", "maskContentUnits",
  "maskUnits", "numOctaves", "pathLength", "patternContentUnits", "patternTransform",
  "patternUnits", "pointsAtX", "pointsAtY", "pointsAtZ", "preserveAlpha", "preserveAspectRatio",
  "primitiveUnits", "refX", "refY", "repeatCount", "repeatDur", "requiredExtensions",
  "requiredFeatures", "specularConstant", "specularExponent", "spreadMethod", "startOffset",
  "stdDeviation", "stitchTiles", "surfaceScale", "systemLanguage", "tableValues", "targetX",
  "targetY", "textLength", "viewBox", "viewTarget", "xChannelSelector", "yChannelSelector",
  "zoomAndPan"].map fun name => (nameOf name.toList, name)

/-- Elements of drawings whose names hold capitals. -/
def drawingElements : List (String × String) := [
  "altGlyph", "altGlyphDef", "altGlyphItem", "animateColor", "animateMotion", "animateTransform",
  "clipPath", "feBlend", "feColorMatrix", "feComponentTransfer", "feComposite",
  "feConvolveMatrix", "feDiffuseLighting", "feDisplacementMap", "feDistantLight", "feDropShadow",
  "feFlood", "feFuncA", "feFuncB", "feFuncG", "feFuncR", "feGaussianBlur", "feImage", "feMerge",
  "feMergeNode", "feMorphology", "feOffset", "fePointLight", "feSpecularLighting", "feSpotLight",
  "feTile", "feTurbulence", "foreignObject", "glyphRef", "linearGradient", "radialGradient",
  "textPath"].map fun name => (nameOf name.toList, name)

/-- Attributes that belong to a vocabulary of their own wherever they stand in foreign content. -/
def foreignAttribute (a : Attribute) : Attribute :=
  match a.name with
  | "xlink:actuate" => { a with space := .xlink, name := "actuate" }
  | "xlink:arcrole" => { a with space := .xlink, name := "arcrole" }
  | "xlink:href" => { a with space := .xlink, name := "href" }
  | "xlink:role" => { a with space := .xlink, name := "role" }
  | "xlink:show" => { a with space := .xlink, name := "show" }
  | "xlink:title" => { a with space := .xlink, name := "title" }
  | "xlink:type" => { a with space := .xlink, name := "type" }
  | "xml:base" => { a with space := .xml, name := "base" }
  | "xml:lang" => { a with space := .xml, name := "lang" }
  | "xml:space" => { a with space := .xml, name := "space" }
  | "xmlns" => { a with space := .xmlns, name := "xmlns" }
  | "xmlns:xlink" => { a with space := .xmlns, name := "xlink" }
  | _ => a

/-- Opens an element of a foreign vocabulary. -/
def openForeign (b : Builder) (space : Space) (t : Tag) : Builder :=
  let names := match space with
    | .svg => drawingAttributes
    | .mathml => [("definitionurl", "definitionURL")]
    | .html => []
  let attributes := t.attributes.map fun a =>
    foreignAttribute { a with name := rename names a.name }
  let insert := if t.selfClosing then b.insertVoid else b.insertOpen
  (insert space t.name attributes).2

/-- Whether a token belongs to the foreign vocabulary of the innermost element. -/
def readsForeign (b : Builder) (token : Token) : Bool :=
  match token, b.current? with
  | .eof, _ | _, none => false
  | token, some n =>
    let name := b.name n
    let isText := match token with
      | .space _ | .text _ | .null => true
      | _ => false
    let started? := match token with
      | .startTag t => some t.name
      | _ => none
    let isPlainTag := started?.any fun s => s != "mglyph" && s != "malignmark"
    if name.1 == .html then false
    else if name.isFormulaText && (isText || isPlainTag) then false
    else if name.isDrawingMarkup && (isText || started?.isSome) then false
    else !(name == (.mathml, "annotation-xml") && started? == some "svg")

/-- Elements of the page that end foreign content. -/
def breakoutNames : List String := [
  "b", "big", "blockquote", "body", "br", "center", "code", "dd", "div", "dl", "dt", "em", "embed",
  "h1", "h2", "h3", "h4", "h5", "h6", "head", "hr", "i", "img", "li", "listing", "menu", "meta",
  "nobr", "ol", "p", "pre", "ruby", "s", "small", "span", "strong", "strike", "sub", "sup", "table",
  "tt", "u", "ul", "var"]

/-- Closes foreign elements until the page's own rules hold again. -/
def leaveForeign (b : Builder) : Step :=
  (b.pop.popTo fun n => n.1 == .html || n.isFormulaText || n.isDrawingMarkup, true)

/-- Opens an element of the vocabulary of the innermost element. -/
def foreignStart (b : Builder) (t : Tag) : Builder :=
  match b.current? with
  | none => b
  | some n =>
    let space := (b.name n).1
    let t := if space == .svg then { t with name := rename drawingElements t.name } else t
    b.openForeign space t

end PageLogic.Html.Builder
