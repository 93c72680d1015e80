import PageLogic.Html.Arena
import PageLogic.Html.Token
/-!
The state in which an HTML source is turned into a tree, and the moves on it: opening and closing
elements, finding the place where a node belongs, and mending formatting elements that are closed
in the wrong order.
-/
namespace PageLogic.Html

/-- Which rules the next token is read by. -/
inductive Mode where
  | initial | beforeHtml | beforeHead | inHead | afterHead | inBody | text | inTable | inTableText
  | inCaption | inColumnGroup | inTableBody | inRow | inCell | inSelect | inSelectInTable
  | inTemplate | afterBody | inFrameset | afterFrameset | afterAfterBody | afterAfterFrameset
  deriving DecidableEq, Repr

/-- An entry in the list of formatting elements. -/
inductive Formatting where
  /-- Entries beyond a marker are out of reach. -/
  | marker
  | element (node : Nat) (tag : Tag)
  deriving DecidableEq, Repr

structure Builder where
  arena : Arena
  /-- The open elements, the innermost first. -/
  stack : List Nat
  /-- The formatting elements to be opened again, the newest first. -/
  formatting : List Formatting
  mode : Mode
  /-- The mode to return to after text. -/
  returnMode : Mode
  /-- The modes of the open templates, the innermost first. -/
  templateModes : List Mode
  head : Option Nat
  form : Option Nat
  framesetAllowed : Bool
  fosterParenting : Bool
  /-- The page asks for the rules of old browsers. -/
  legacy : Bool
  /-- A line feed that comes next is dropped. -/
  skipLineFeed : Bool
  /-- Text inside a table that waits for its place, the newest first. -/
  pendingText : List String
  reading : ReadingMode
  deriving Repr

/-- The name of an element together with its vocabulary. -/
abbrev Name := Space × String

namespace Name

def html (names : List String) (n : Name) : Bool :=
  n.1 == .html && names.contains n.2

/-- Elements of formulas that hold plain text. -/
def isFormulaText (n : Name) : Bool :=
  n.1 == .mathml && ["mi", "mo", "mn", "ms", "mtext"].contains n.2

/-- Elements of drawings that hold markup of the page. -/
def isDrawingMarkup (n : Name) : Bool :=
  n.1 == .svg && ["foreignObject", "desc", "title"].contains n.2

/-- Elements that close what a generic end tag left open. -/
def isSpecial : Name → Bool := html [
  "address", "applet", "area", "article", "aside", "base", "basefont", "bgsound", "blockquote",
  "body", "br", "button", "caption", "center", "col", "colgroup", "dd", "details", "dir", "div",
  "dl", "dt", "embed", "fieldset", "figcaption", "figure", "footer", "form", "frame", "frameset",
  "h1", "h2", "h3", "h4", "h5", "h6", "head", "header", "hgroup", "hr", "html", "iframe", "img",
  "input", "isindex", "li", "link", "listing", "main", "marquee", "menu", "meta", "nav", "noembed",
  "noframes", "noscript", "object", "ol", "p", "param", "plaintext", "pre", "script", "section",
  "select", "source", "style", "summary", "table", "tbody", "td", "template", "textarea", "tfoot",
  "th", "thead", "title", "tr", "track", "ul", "wbr", "xmp"]

/-- Elements beyond which an end tag does not look for its element. -/
def boundsScope (n : Name) : Bool :=
  html ["applet", "caption", "html", "table", "td", "th", "marquee", "object", "template"] n ||
    n.isFormulaText || n.isDrawingMarkup

def boundsListItem (n : Name) : Bool := n.boundsScope || html ["ol", "ul"] n

def boundsButton (n : Name) : Bool := n.boundsScope || html ["button"] n

def boundsTable : Name → Bool := html ["html", "table", "template"]

def boundsSelect (n : Name) : Bool := !html ["optgroup", "option"] n

/-- Elements whose end tag may be left out. -/
def isImplied : Name → Bool :=
  html ["dd", "dt", "li", "option", "optgroup", "p", "rb", "rp", "rt", "rtc"]

/-- Elements whose end tag may be left out at the end of a template. -/
def isImpliedThoroughly (n : Name) : Bool :=
  n.isImplied || html ["caption", "colgroup", "tbody", "td", "tfoot", "th", "thead", "tr"] n

def isHeading : Name → Bool := html ["h1", "h2", "h3", "h4", "h5", "h6"]

/-- Parts of a table that take no text of their own. -/
def isTablePart : Name → Bool := html ["table", "tbody", "tfoot", "thead", "tr"]

end Name

namespace Builder

def start : Builder :=
  ⟨.empty, [], [], .initial, .inBody, [], none, none, true, false, false, false, [], .markup⟩

/-- The name of a node; a node that is no element has an empty one. -/
def name (b : Builder) (n : Nat) : Name :=
  match b.arena.content n with
  | .element space name _ => (space, name)
  | _ => (.html, "")

def current? (b : Builder) : Option Nat := b.stack.head?

def currentIs (b : Builder) (p : Name → Bool) : Bool :=
  b.current?.any fun n => p (b.name n)

def currentIsHtml (b : Builder) (name : String) : Bool :=
  b.currentIs (Name.html [name])

/-- Whether an element of that name is open anywhere. -/
def hasOpen (b : Builder) (name : String) : Bool :=
  b.stack.any fun n => Name.html [name] (b.name n)

/-- Whether one of the open elements satisfies `p` before one bounds the scope. -/
def inScopeOf (b : Builder) (bounds : Name → Bool) (p : Nat → Bool) : Bool :=
  go b.stack
where
  go : List Nat → Bool
    | [] => false
    | n :: rest => p n || (!bounds (b.name n) && go rest)

def inScope (b : Builder) (bounds : Name → Bool) (names : List String) : Bool :=
  b.inScopeOf bounds fun n => Name.html names (b.name n)

def pop (b : Builder) : Builder :=
  { b with stack := b.stack.tail }

def push (b : Builder) (n : Nat) : Builder :=
  { b with stack := n :: b.stack }

/-- Closes the innermost elements as long as they satisfy `p`. -/
def popWhile (b : Builder) (p : Name → Bool) : Builder :=
  { b with stack := b.stack.dropWhile fun n => p (b.name n) }

/-- Closes elements until one that satisfies `p` has been closed. -/
def popThrough (b : Builder) (p : Name → Bool) : Builder :=
  (b.popWhile fun n => !p n).pop

def popThroughHtml (b : Builder) (name : String) : Builder :=
  b.popThrough (Name.html [name])

/-- Closes elements until the innermost satisfies `p`. -/
def popTo (b : Builder) (p : Name → Bool) : Builder :=
  b.popWhile fun n => !p n

def closeImplied (b : Builder) : Builder :=
  b.popWhile Name.isImplied

def closeImpliedExcept (b : Builder) (name : String) : Builder :=
  b.popWhile fun n => n.isImplied && !Name.html [name] n

def removeFromStack (b : Builder) (n : Nat) : Builder :=
  { b with stack := b.stack.erase n }

/-- The outermost open element. -/
def outermost (b : Builder) : Nat :=
  b.stack.getLast?.getD 0

/-! ### Where a node belongs -/

/-- A place in the tree. -/
inductive Place where
  | under (parent : Nat)
  /-- Before a table, or below the element around it if the table hangs nowhere. -/
  | nextToTable (table outer : Nat)

/-- The place for a node that belongs to `target`, or to the innermost open element. -/
def placeFor (b : Builder) (target? : Option Nat) : Place :=
  let target := (target? <|> b.current?).getD 0
  if !(b.fosterParenting && (b.name target).isTablePart) then .under target
  else go b.stack
where
  go : List Nat → Place
    | [] => .under b.outermost
    | n :: rest =>
      if Name.html ["template"] (b.name n) then .under n
      else if Name.html ["table"] (b.name n) then .nextToTable n (rest.head?.getD n)
      else go rest

def insertNode (b : Builder) (n : Nat) (target? : Option Nat) : Builder :=
  match b.placeFor target? with
  | .under p => { b with arena := b.arena.append p n }
  | .nextToTable table outer =>
    if (b.arena.parent? table).isSome then { b with arena := b.arena.insertBefore table n }
    else { b with arena := b.arena.append outer n }

def insertText (b : Builder) (text : String) : Builder :=
  match b.placeFor none with
  | .under p => { b with arena := b.arena.appendText p text }
  | .nextToTable table outer =>
    if (b.arena.parent? table).isSome then { b with arena := b.arena.insertTextBefore table text }
    else { b with arena := b.arena.appendText outer text }

def insertComment (b : Builder) (text : String) : Builder :=
  let (n, arena) := b.arena.make (.comment text)
  { b with arena }.insertNode n none

/-- Hangs a comment below a given node. -/
def insertCommentUnder (b : Builder) (p : Nat) (text : String) : Builder :=
  let (n, arena) := b.arena.make (.comment text)
  { b with arena := arena.append p n }

/-- Makes an element in its place without opening it. -/
def insertVoid (b : Builder) (space : Space) (name : String) (attributes : List Attribute) :
    Nat × Builder :=
  let (n, arena) := b.arena.make (.element space name attributes)
  (n, { b with arena }.insertNode n none)

/-- Makes an element in its place and opens it. -/
def insertOpen (b : Builder) (space : Space) (name : String) (attributes : List Attribute) :
    Nat × Builder :=
  let (n, b) := b.insertVoid space name attributes
  (n, b.push n)

/-- Opens the element of a start tag. -/
def openTag (b : Builder) (t : Tag) : Builder :=
  (b.insertOpen .html t.name t.attributes).2

/-- Makes the element of a start tag that has no content. -/
def voidTag (b : Builder) (t : Tag) : Builder :=
  (b.insertVoid .html t.name t.attributes).2

/-- Opens an element for which there is no tag. -/
def openImplied (b : Builder) (name : String) : Builder :=
  (b.insertOpen .html name []).2

/-- Opens the outermost element. -/
def openRoot (b : Builder) (attributes : List Attribute) : Builder :=
  let (n, arena) := b.arena.make (.element .html "html" attributes)
  { b with arena := arena.append 0 n, stack := n :: b.stack }

/-- Closes a paragraph, and what may be closed with it. -/
def closeParagraph (b : Builder) : Builder :=
  (b.popWhile fun n => n.isImplied && !Name.html ["p"] n).popThroughHtml "p"

def closeParagraphInScope (b : Builder) : Builder :=
  if b.inScope Name.boundsButton ["p"] then b.closeParagraph else b

/-! ### Formatting elements -/

def pushMarker (b : Builder) : Builder :=
  { b with formatting := .marker :: b.formatting }

/-- Forgets the formatting elements up to the last marker. -/
def clearToMarker (b : Builder) : Builder :=
  { b with formatting := (b.formatting.dropWhile (· ≠ .marker)).tail }

def Formatting.isNode (n : Nat) : Formatting → Bool
  | .marker => false
  | .element m _ => m == n

def isFormatting (b : Builder) (n : Nat) : Bool :=
  b.formatting.any (Formatting.isNode n)

/-- Forgets the newest entry of a node. -/
def forgetFormatting (b : Builder) (n : Nat) : Builder :=
  { b with formatting := b.formatting.eraseP (Formatting.isNode n) }

/-- The entries that are newer than the last marker, the newest first. -/
def reachable (b : Builder) : List (Nat × Tag) :=
  (b.formatting.takeWhile (· ≠ .marker)).filterMap fun
    | .marker => none
    | .element n t => some (n, t)

/-- Same name and same attributes, in any order. -/
def alike (t u : Tag) : Bool :=
  t.name == u.name && t.attributes.length == u.attributes.length &&
    t.attributes.all u.attributes.contains

/-- Opens a formatting element. Of four alike, the oldest is forgotten. -/
def openFormatting (b : Builder) (t : Tag) : Builder :=
  let same := b.reachable.filter fun (_, u) => alike t u
  let b :=
    match same[2]?, same.getLast? with
    | some _, some (oldest, _) => b.forgetFormatting oldest
    | _, _ => b
  let (n, b) := b.insertOpen .html t.name t.attributes
  { b with formatting := .element n t :: b.formatting }

/-- Opens again the formatting elements that were closed with something else. -/
def reopenFormatting (b : Builder) : Builder :=
  let closed := b.formatting.takeWhile fun
    | .marker => false
    | .element n _ => !b.stack.contains n
  let kept := b.formatting.drop closed.length
  closed.reverse.foldl (fun b entry =>
    match entry with
    | .marker => b
    | .element _ t =>
      let (n, b) := b.insertOpen .html t.name t.attributes
      { b with formatting := .element n t :: b.formatting }) { b with formatting := kept }

/-- Closes elements down to the one that a generic end tag names, unless a special element is in
the way. -/
def closeGeneric (b : Builder) (name : String) : Builder :=
  go b.stack
where
  go : List Nat → Builder
    | [] => b
    | n :: rest =>
      if Name.html [name] (b.name n) then { b with stack := rest }
      else if (b.name n).isSpecial then b
      else go rest

/-- What the walk from a block down to a formatting element has made of the elements between. -/
structure Walk where
  builder : Builder
  /-- The elements between that stay open, the outermost first. -/
  kept : List Nat
  /-- The node that is to hang below the next. -/
  last : Nat
  /-- The entry after which the formatting element is entered again. -/
  bookmark : Option Nat

/-- Takes one element between a block and its formatting element: of the first three, those that
are formatting elements are made anew around what is below; all others are closed. -/
def Walk.step (block : Nat) (w : Walk) (count node : Nat) : Walk :=
  let b := w.builder
  if count > 3 then { w with builder := b.forgetFormatting node }
  else
    match b.formatting.find? (Formatting.isNode node) with
    | some (.element _ t) =>
      let (n, arena) := b.arena.make (.element .html t.name t.attributes)
      let renew := fun
        | Formatting.element m u => if m = node then .element n t else .element m u
        | .marker => .marker
      let b := { b with arena := arena.append n w.last, formatting := b.formatting.map renew }
      ⟨b, n :: w.kept, n, if w.last = block then some n else w.bookmark⟩
    | _ => w

/-- Moves a block out of a formatting element, and the formatting element into the block. `above`
are the open elements inside the formatting element, the innermost first. -/
def exchange (b : Builder) (formatting : Nat) (t : Tag) (inner : List Nat) (block : Nat)
    (between below : List Nat) : Builder :=
  let walk := (between.zipIdx 1).foldl (fun w (node, count) => w.step block count node)
    (Walk.mk b [] block none)
  let b := walk.builder
  let b := { b with arena := b.arena.detach walk.last }.insertNode walk.last below.head?
  let (n, arena) := b.arena.make (.element .html t.name t.attributes)
  let arena := (arena.adopt block n).append block n
  let entry := Formatting.element n t
  let entries :=
    match walk.bookmark with
    | none => b.formatting.map fun e => if Formatting.isNode formatting e then entry else e
    | some mark =>
      (b.formatting.flatMap fun e => if Formatting.isNode mark e then [entry, e] else [e]).eraseP
        (Formatting.isNode formatting)
  let stack := inner ++ n :: block :: walk.kept.reverse ++ below
  { b with arena, formatting := entries, stack }

/-- One round of closing a formatting element of that name; nothing if there is no more to do. -/
def closeFormattingOnce (b : Builder) (name : String) : Builder × Bool :=
  match b.reachable.find? fun (_, t) => t.name == name with
  | none => (b.closeGeneric name, false)
  | some (node, t) =>
    if !b.stack.contains node then (b.forgetFormatting node, false)
    else if !b.inScopeOf Name.boundsScope (· == node) then (b, false)
    else
      let above := b.stack.takeWhile (· != node)
      let below := (b.stack.dropWhile (· != node)).tail
      let special := fun n => (b.name n).isSpecial
      match above.reverse.find? special with
      | none => ({ b with stack := below }.forgetFormatting node, false)
      | some block =>
        let inner := above.takeWhile (· != block)
        let between := (above.dropWhile (· != block)).tail
        (b.exchange node t inner block between below, true)

/-- Closes a formatting element, at most `rounds` blocks being moved out of it. -/
def closeFormattingRounds : (rounds : Nat) → Builder → String → Builder
  | 0, b, _ => b
  | rounds + 1, b, name =>
    match b.closeFormattingOnce name with
    | (b, true) => closeFormattingRounds rounds b name
    | (b, false) => b

/-- What the end tag of a formatting element does. -/
def closeFormatting (b : Builder) (name : String) : Builder :=
  match b.current? with
  | some n =>
    if b.currentIsHtml name && !b.isFormatting n then b.pop else b.closeFormattingRounds 8 name
  | none => b

/-! ### Modes -/

/-- The mode that the open elements call for. -/
def modeOfStack (b : Builder) : Mode :=
  go b.stack
where
  go : List Nat → Mode
    | [] => .inBody
    | n :: rest =>
      let last := rest.isEmpty
      if (b.name n).1 != .html then go rest
      else
        match (b.name n).2 with
        | "select" =>
          match rest.find? fun m => Name.html ["template", "table"] (b.name m) with
          | some m => if Name.html ["table"] (b.name m) then .inSelectInTable else .inSelect
          | none => .inSelect
        | "td" | "th" => if last then go rest else .inCell
        | "tr" => .inRow
        | "tbody" | "thead" | "tfoot" => .inTableBody
        | "caption" => .inCaption
        | "colgroup" => .inColumnGroup
        | "table" => .inTable
        | "template" => b.templateModes.head?.getD .inTemplate
        | "head" => if last then go rest else .inHead
        | "body" => .inBody
        | "frameset" => .inFrameset
        | "html" => if b.head.isSome then .afterHead else .beforeHead
        | _ => go rest

def resetMode (b : Builder) : Builder :=
  { b with mode := b.modeOfStack }

/-- Reads what follows as text, and returns to the present mode afterwards. -/
def readText (b : Builder) (reading : ReadingMode) : Builder :=
  { b with returnMode := b.mode, mode := .text, reading }

/-- Opens an element whose content is text. -/
def openText (b : Builder) (t : Tag) (reading : ReadingMode) : Builder :=
  (b.openTag t).readText reading

end Builder

end PageLogic.Html
