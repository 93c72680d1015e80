import PageLogic.DevTools.Talk
import PageLogic.Json.Read
import PageLogic.Question
import PageLogic.Term.Display
import PageLogic.Text.Number
/-!
Pages of a running browser: an oracle that answers by talking to the page.

A handle holds a node's lasting number, which stays the same while the document lives. Questions
about an element have the page run a small script on it; afterwards the objects that this made are
let go, whatever came of it.
-/
namespace PageLogic.DevTools

/-! ### Scripts -/

namespace Script

def tagName : String := "function() \x7b return this.tagName.toLowerCase(); \x7d"

def text : String :=
  "function() \x7b return (this.innerText || this.textContent || '').trim(); \x7d"

def attributeValue : String := "function(name) \x7b return this.getAttribute(name); \x7d"

def size : String :=
  "function() \x7b const r = this.getBoundingClientRect(); " ++
  "return \x7b width: Math.round(r.width), height: Math.round(r.height) \x7d; \x7d"

def location : String :=
  "function() \x7b const r = this.getBoundingClientRect(); " ++
  "return \x7b x: Math.round(r.left + window.scrollX), " ++
  "y: Math.round(r.top + window.scrollY) \x7d; \x7d"

def displayed : String :=
  "function() \x7b if (!this.isConnected) return false; " ++
  "for (let e = this; e; e = e.parentElement) \x7b " ++
  "if (window.getComputedStyle(e).display === 'none') return false; \x7d " ++
  "if (window.getComputedStyle(this).visibility !== 'visible') return false; " ++
  "return this.getClientRects().length > 0; \x7d"

def visible : String :=
  "function() \x7b if (!this.isConnected) return false; " ++
  "for (let e = this; e; e = e.parentElement) \x7b const s = window.getComputedStyle(e); " ++
  "if (s.display === 'none' || parseFloat(s.opacity) === 0) return false; \x7d " ++
  "if (window.getComputedStyle(this).visibility !== 'visible') return false; " ++
  "const r = this.getBoundingClientRect(); return r.width > 0 && r.height > 0; \x7d"

def enabled : String := "function() \x7b return !this.disabled; \x7d"

def attached : String := "function() \x7b return this.isConnected; \x7d"

def selected : String := "function() \x7b return !!(this.selected || this.checked); \x7d"

def title : String := "document.title"

def currentUrl : String := "window.location.href"

def readyState : String := "document.readyState"

end Script

/-- The group of the objects that questions make. -/
def objectGroup : String := "domlogic"

/-! ### Nodes -/

/-- The lasting number that a handle holds. -/
def backendId (h : Handle) : Except Fault Int :=
  match Text.intWithin? Word.signedLimit h.id.toList with
  | some id => .ok id
  | none => .error ⟨.invalidElementState, h.display ++ " is not a CDP element handle"⟩

/-- The handle of a lasting number. -/
def handle (backendId : Int) : Handle := ⟨toString backendId⟩

/-- The lasting numbers of the nodes of a tree, as far as the tree tells them. -/
structure NodeIndex where
  root : Int
  backendIds : List (Int × Int)
  deriving DecidableEq, Repr

namespace NodeIndex

/-- What a node says of itself: its number and its lasting number. -/
def own (node : Json) : List (Int × Int) :=
  match (node.get? "nodeId").bind Json.int?, (node.get? "backendNodeId").bind Json.int? with
  | some id, some backend => [(id, backend)]
  | _, _ => []

/-- The nodes that hang below one, in the order in which they are visited. -/
def below (node : Json) : List Json :=
  (["children", "shadowRoots", "pseudoElements"].flatMap fun key =>
      ((node.get? key).bind Json.array?).getD []) ++
    ["contentDocument", "templateContent"].filterMap (node.get? ·)

/-- What the nodes of a tree say, at most `depth` levels deep. -/
def collect : (depth : Nat) → Json → List (Int × Int)
  | 0, _ => []
  | depth + 1, node => own node ++ (below node).flatMap (collect depth)

/-- The index of a tree. Values are never nested deeper than the limit of reading. -/
def ofRoot (root : Json) : Except Failure NodeIndex :=
  match (root.get? "nodeId").bind Json.int? with
  | some id => .ok ⟨id, (collect Json.depthLimit root).reverse⟩
  | none => .error (.malformed "document root without nodeId")

/-- The lasting number of a node; what was said last counts. -/
def lookup (index : NodeIndex) (node : Int) : Option Int :=
  index.backendIds.lookup node

/-- The index of the page's present document. -/
def fetch : Talk NodeIndex :=
  Talk.document.andThen fun root => .ofExcept (ofRoot root)

/-- Handles of nodes, in order. The page is asked about a node that the index does not know. -/
def handles (index : NodeIndex) : List Int → Talk (List Handle)
  | [] => .value []
  | node :: rest =>
    let backend : Talk Int :=
      match index.lookup node with
      | some backend => .value backend
      | none => Talk.describe node
    backend.andThen fun backend =>
      (handles index rest).map fun others => handle backend :: others

end NodeIndex

/-! ### Questions -/

/-- Has the page run a function on an element. -/
def callOn (h : Handle) (function : String) (arguments : List Json) :
    Talk (Except Fault Json) :=
  match backendId h with
  | .error e => .value (.error e)
  | .ok backend =>
    (Talk.resolveNode backend objectGroup).andThen fun object =>
      (Talk.callFunctionOn object function arguments).attempt fun result =>
        (Talk.releaseGroup objectGroup).attempt fun _ =>
          (Talk.ofExcept result).map .ok

/-- A value is not what it should be. -/
def unexpected (expected : String) (actual : Json) : Fault :=
  ⟨.unexpected, "expected " ++ expected ++ ", got " ++ actual.compact⟩

def asString : Json → Except Fault String
  | .string s => .ok s
  | other => .error (unexpected "a string" other)

def asBool : Json → Except Fault Bool
  | .bool b => .ok b
  | other => .error (unexpected "a boolean" other)

/-- Text, or nothing where the page says null. -/
def asOptionalString : Json → Except Fault (Option String)
  | .null => .ok none
  | other => (asString other).map some

/-- A number in a field, rounded to a whole one. -/
def intField (j : Json) (name : String) : Except Fault Int :=
  match j.get? name with
  | some (.number n) => .ok (Word.clamp n.rounded)
  | _ => .error ⟨.unexpected, "missing numeric field '" ++ name ++ "' in " ++ j.compact⟩

def asSize (j : Json) : Except Fault Size := do
  return ⟨← intField j "width", ← intField j "height"⟩

def asLocation (j : Json) : Except Fault Location := do
  return ⟨← intField j "x", ← intField j "y"⟩

/-- Reads the value that a script returned. -/
def reading {α : Type} (read : Json → Except Fault α) (t : Talk (Except Fault Json)) :
    Talk (Except Fault α) :=
  t.map fun r => r.bind read

/-- The value of an expression, read as text. -/
def evaluateString (expression : String) : Talk (Except Fault String) :=
  (Talk.evaluate expression).map asString

/-- The nodes below one that a selector matches. -/
def select (index : NodeIndex) (node : Int) (scope : String) : Talk (List Handle) :=
  (Talk.querySelectorAll node scope).andThen index.handles

/-- How a question is put to the page. -/
def ask : (q : Question) → Talk (Except Fault q.Value)
  | .elements scope =>
    NodeIndex.fetch.andThen fun index => (select index index.root scope).map .ok
  | .descendants parent scope =>
    match backendId parent with
    | .error e => .value (.error e)
    | .ok backend =>
      NodeIndex.fetch.andThen fun index =>
        (Talk.pushNodes [backend]).andThen fun pushed =>
          let gone : Fault :=
            ⟨.invalidElementState, parent.display ++ " is no longer in the document"⟩
          match pushed with
          | [] => .value (.error gone)
          | node :: _ =>
            if node = 0 then .value (.error gone) else (select index node scope).map .ok
  | .attribute e name => reading asOptionalString (callOn e Script.attributeValue [.string name])
  | .tagName e => reading asString (callOn e Script.tagName [])
  | .text e => reading asString (callOn e Script.text [])
  | .size e => reading asSize (callOn e Script.size [])
  | .location e => reading asLocation (callOn e Script.location [])
  | .displayed e => reading asBool (callOn e Script.displayed [])
  | .enabled e => reading asBool (callOn e Script.enabled [])
  | .exists e => reading asBool (callOn e Script.attached [])
  | .selected e => reading asBool (callOn e Script.selected [])
  | .visible e => reading asBool (callOn e Script.visible [])
  | .title => evaluateString Script.title
  | .currentUrl => evaluateString Script.currentUrl

/-- A page at the other end of a link as an oracle. A failed command is the fault it amounts to. -/
def oracle {σ : Type} (link : Link σ) : Oracle σ where
  answer q s :=
    match (ask q).run link s with
    | (.ok r, s) => (r, s)
    | (.error f, s) => (.error f.toFault, s)

/-! ### Coming and going -/

/-- The groups of commands that a session switches on. -/
def domains : List String := ["Page", "Runtime", "DOM"]

/-- What a session does first. -/
def greet : Talk Unit :=
  domains.foldr (fun domain rest => (Talk.enableDomain domain).andThen fun _ => rest) (.value ())

/-- Waits until the document is complete, asking at most `polls` times. -/
def awaitComplete (secs : Nat) : (polls : Nat) → Talk Unit
  | 0 => .failure (.timeout Script.readyState secs)
  | polls + 1 =>
    (Talk.evaluate Script.readyState).andThen fun state =>
      if state.string? = some "complete" then .value () else awaitComplete secs polls

/-- Goes to an address and waits for its document, asking ten times a second as long as a command
may take. -/
def visit (timeoutMillis : Nat) (url : String) : Talk Unit :=
  (Talk.navigate url).andThen fun _ =>
    awaitComplete (timeoutMillis / 1000) (timeoutMillis / 100 + 1)

/-- A failure of the session as a whole. -/
def sessionError (f : Failure) : Error :=
  .session f.message

/-- No connection to an address could be made. -/
def unreachable (url detail : String) : Failure :=
  .transport ("Failed to connect to CDP endpoint " ++ url ++ ": " ++ detail)

end PageLogic.DevTools
