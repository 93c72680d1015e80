import PageLogic.Command.Arguments
import PageLogic.Goal
import PageLogic.Paths
import PageLogic.Relation.Attribute
import PageLogic.Relation.Page
import PageLogic.Text.Lowercase
/-!
The commands of the program and how they are written.
-/
namespace PageLogic

/-- A relation with one unknown, which a command line asks about. -/
inductive Inquiry where
  /-- Elements with an attribute of that name and value. -/
  | attribute (name value : String)
  | tag (name : String)
  | text (content : String)
  | displayed
  | enabled
  | exists
  | present
  | selected
  | visible
  | title
  | url
  deriving DecidableEq, Repr

/-- The goal of an inquiry about a term. -/
def Inquiry.goal (i : Inquiry) (t : Term) : Goal :=
  match i with
  | .attribute name value => Relation.carries t (.str name) (.str value)
  | .tag name => Relation.tag t (.str (Text.lowercase name))
  | .text content => Relation.text t (.str content)
  | .displayed => Relation.displayed t
  | .enabled => Relation.enabled t
  | .exists => Relation.attached t
  | .present => Relation.present t
  | .selected => Relation.selected t
  | .visible => Relation.visible t
  | .title => Relation.title t
  | .url => Relation.currentUrl t

/-- An inquiry about a page. -/
structure Query where
  /-- The address to go to first, or the address that a page from a file passes for. -/
  url : Option String
  /-- The address of a running page. -/
  ws : Option String
  /-- The file that holds the page. -/
  html : Option Path
  scope : Scope.Override
  limit : Option Nat
  inquiry : Inquiry
  deriving DecidableEq, Repr

inductive Command where
  | query (q : Query)
  | showConfig
  /-- Writes the default configuration; an existing one is kept unless the write is forced. -/
  | initConfig (force : Bool)
  | doctor
  | help
  | version
  deriving DecidableEq, Repr

namespace Command

/-! ### Levels -/

def verbose : Flag := ⟨"verbose", some 'v'⟩

def helpFlag : Flag := ⟨"help", some 'h'⟩

/-- A level without settings of its own. -/
def plainLevel (commands : List String) (words : Nat) : Level :=
  ⟨[verbose, helpFlag], [], commands, words⟩

def topLevel : Level :=
  ⟨[verbose, helpFlag, ⟨"version", some 'V'⟩], [], ["query", "config", "doctor", "help"], 0⟩

def queryLevel : Level where
  switches := [verbose, helpFlag]
  settings := [
    ⟨⟨"url", none⟩, .any⟩, ⟨⟨"ws", none⟩, .any⟩, ⟨⟨"html", none⟩, .nonempty⟩,
    ⟨⟨"root-scope", none⟩, .any⟩, ⟨⟨"child-scope", none⟩, .any⟩, ⟨⟨"limit", some 'n'⟩, .count⟩]
  commands := [
    "attribute", "tag", "text", "displayed", "enabled", "exists", "present", "selected",
    "visible", "title", "url", "help"]
  words := 0

def configLevel : Level :=
  plainLevel ["show", "init", "help"] 0

def initLevel : Level :=
  ⟨[verbose, helpFlag, ⟨"force", none⟩], [], [], 0⟩

/-! ### Reading -/

/-- How many words an inquiry takes. -/
def inquiryWords (name : String) : Nat :=
  if name = "attribute" then 2 else if name = "tag" || name = "text" then 1 else 0

def inquiry? (name : String) (words : List String) : Option Inquiry :=
  match name, words with
  | "attribute", [attr, value] => some (.attribute attr value)
  | "tag", [tag] => some (.tag tag)
  | "text", [content] => some (.text content)
  | "displayed", [] => some .displayed
  | "enabled", [] => some .enabled
  | "exists", [] => some .exists
  | "present", [] => some .present
  | "selected", [] => some .selected
  | "visible", [] => some .visible
  | "title", [] => some .title
  | "url", [] => some .url
  | _, _ => none

/-- The query that a level was given; a page comes from a file or from an address, not both. -/
def queryOf (g : Given) (inquiry : Inquiry) : Option Query :=
  let html := g.settings.lookup "html"
  let ws := g.settings.lookup "ws"
  if html.isSome && ws.isSome then none
  else some {
    url := g.settings.lookup "url"
    ws := ws
    html := html
    scope := ⟨g.settings.lookup "root-scope", g.settings.lookup "child-scope"⟩
    limit := (g.settings.lookup "limit").bind fun n => Text.natBelow? Word.limit n.toList
    inquiry := inquiry }

/-- The command that a switch stands for. -/
def ofSwitch (switch : String) : Command :=
  if switch = "version" then .version else .help

/-- A level whose words end the command line. -/
def last (l : Level) (words : List String) (f : Given → Option Command) : Option Command :=
  match l.read .nothing none words with
  | .finished g => f g
  | .answered switch => some (ofSwitch switch)
  | .command .. | .refused => none

/-- A level that is followed by another. -/
def step (l : Level) (words : List String)
    (f : Given → (name : String) → (rest : List String) → Option Command) : Option Command :=
  match l.read .nothing none words with
  | .command g name rest => if name = "help" then some .help else f g name rest
  | .answered switch => some (ofSwitch switch)
  | .finished _ | .refused => none

def parseQuery (words : List String) : Option Command :=
  step queryLevel words fun g name rest =>
    last (plainLevel [] (inquiryWords name)) rest fun own => do
      let inquiry ← inquiry? name own.words
      (queryOf g inquiry).map .query

def parseConfig (words : List String) : Option Command :=
  step configLevel words fun _ name rest =>
    if name = "show" then last (plainLevel [] 0) rest fun _ => some .showConfig
    else last initLevel rest fun g => some (.initConfig (g.switches.contains "force"))

/-- The command that the words of a command line write down, if they write down one. -/
def parse? (words : List String) : Option Command :=
  step topLevel words fun _ name rest =>
    if name = "query" then parseQuery rest
    else if name = "config" then parseConfig rest
    else last (plainLevel [] 0) rest fun _ => some .doctor

end Command

end PageLogic
