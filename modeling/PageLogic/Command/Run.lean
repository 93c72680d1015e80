import PageLogic.Browser.Launch
import PageLogic.Command.Parse
import PageLogic.DevTools.Live
import PageLogic.Page
/-!
What a command prints and writes, given what it finds around it.
-/
namespace PageLogic

/-- What a command finds. -/
structure Surroundings where
  paths : Paths
  /-- The content of the configuration file, if there is one. -/
  config : Option ByteArray
  /-- Whether a program is there under a name. -/
  installed : String → Bool

/-- What a command leaves. -/
structure Report where
  lines : List String
  /-- Why the command failed, if it did. -/
  failure : Option String
  /-- What the configuration file is to hold from now on, if it is written. -/
  saved : Option String
  deriving DecidableEq, Repr

namespace Report

def printed (lines : List String) : Report := ⟨lines, none, none⟩

def failed (message : String) : Report := ⟨[], some message, none⟩

/-- Everything that is printed; every line is ended. -/
def stdout (r : Report) : String :=
  .join (r.lines.map (· ++ "\n"))

/-- Zero for success, one for failure. -/
def exitCode (r : Report) : Nat :=
  if r.failure.isSome then 1 else 0

end Report

/-! ### Queries -/

namespace Query

variable {σ : Type}

/-- The line for an answer. An element is shown by its tag name and its handle, or by its handle
alone if it does not tell its name. -/
def describe (o : Oracle σ) (t : Term) (s : σ) : String × σ :=
  match t with
  | .element e =>
    match o.answer (.tagName e) s with
    | (.ok name, s) =>
      (.ofList (Text.padRight 10 (Text.lowercase name).toList) ++ " " ++ e.id, s)
    | (.error _, s) => (e.display, s)
  | .str text => (text, s)
  | t => (t.display, s)

/-- The lines for answers, in order. -/
def describeAll (o : Oracle σ) : List Term → σ → List String × σ
  | [], s => ([], s)
  | t :: rest, s =>
    let (line, s) := describe o t s
    let (lines, s) := describeAll o rest s
    (line :: lines, s)

/-- Solves the inquiry and prints each answer on a line. -/
def answer (q : Query) (o : Oracle σ) (scope : Scope) (s : σ) : Report × σ :=
  let (r, w) := Goal.run o ⟨scope⟩ q.limit 0 q.inquiry.goal (.of s)
  match r with
  | .error e => (.failed e.message, w.state)
  | .ok answers =>
    let (lines, s) := describeAll o answers w.state
    (.printed (if answers.isEmpty then ["(no answers)"] else lines), s)

/-- Answers a query from the content of a file. -/
def answerFile (q : Query) (scope : Scope) (path : Path) (content : Option ByteArray) : Report :=
  match content.bind String.fromUTF8? with
  | none => .failed ("Failed to read " ++ path)
  | some source =>
    let url := q.url.getD ("file://" ++ path)
    (q.answer Page.oracle scope (Page.load url source)).1

/-- Answers a query over a link to a running page, on which a command may take some time. -/
def answerOver (q : Query) (link : DevTools.Link σ) (timeoutMillis : Nat) (scope : Scope)
    (s : σ) : Report × σ :=
  let arrive : DevTools.Talk Unit :=
    DevTools.greet.andThen fun _ =>
      match q.url with
      | some url => DevTools.visit timeoutMillis url
      | none => .value ()
  match arrive.run link s with
  | (.error f, s) => (.failed (DevTools.sessionError f).message, s)
  | (.ok _, s) => q.answer (DevTools.oracle link) scope s

/-- The report for a browser that was to be started and did not listen. -/
def unstarted (s : Surroundings) (b : BrowserSettings) (number : String) : Report :=
  match Browser.start b s.paths s.installed number with
  | .error e => .failed e.message
  | .ok _ => .failed (Browser.notReady b number).message

/-- The settings of the browser that a query talks to. -/
def browser (q : Query) (c : Config) : BrowserSettings :=
  match q.ws with
  | some ws => { c.browser with wsEndpoint := some ws }
  | none => c.browser

end Query

/-! ### Configuration and diagnostics -/

namespace Command

/-- Prints the configuration that applies. -/
def showReport (s : Surroundings) : Report :=
  match Config.loadOrDefault s.config with
  | .error e => .failed e.message
  | .ok c =>
    let note := if s.config.isSome then "" else " (not created, showing defaults)"
    .printed ["", "📋 Current Configuration", "  File: " ++ s.paths.configFile ++ note, "", c.text]

/-- Writes the default configuration, unless there is one that is to be kept. -/
def initReport (s : Surroundings) (force : Bool) : Report :=
  if s.config.isSome && !force then
    .printed ["Config already exists at " ++ s.paths.configFile, "Use --force to overwrite."]
  else
    ⟨["✅ Wrote " ++ s.paths.configFile, "",
      "Edit `scope.root` / `scope.child` to change the default selectors,",
      "or set `browser.wsEndpoint` to attach to a running browser."],
      none, some Config.default.text⟩

/-- One finding of the diagnostics. -/
inductive Finding where
  | ok (label detail : String)
  | warning (label hint : String)
  | error (label hint : String)
  deriving DecidableEq, Repr

namespace Finding

def line : Finding → String
  | .ok label detail => "  ✅ " ++ label ++ (if detail.isEmpty then "" else " (" ++ detail ++ ")")
  | .warning label hint => "  ⚠️  " ++ label ++ " (" ++ hint ++ ")"
  | .error label hint => "  ❌ " ++ label ++ " (" ++ hint ++ ")"

def isOk : Finding → Bool
  | .ok .. => true
  | _ => false

def isWarning : Finding → Bool
  | .warning .. => true
  | _ => false

def isError : Finding → Bool
  | .error .. => true
  | _ => false

end Finding

/-- What there is to say about the configuration, and the configuration that applies. -/
def configFindings (s : Surroundings) : List Finding × Config :=
  let file : Finding :=
    if s.config.isSome then .ok "Config file exists" s.paths.configFile
    else .warning "Config file not found"
      "Defaults apply; run `domlogic config init` to create one"
  match Config.loadOrDefault s.config with
  | .ok c => ([file, .ok "Config is valid" ""], c)
  | .error e => ([file, .error "Config is invalid" e.message], .default)

/-- What there is to say about the browsers. -/
def browserFindings (s : Surroundings) (b : BrowserSettings) : List Finding :=
  let available := Engine.available s.installed
  let wanted := Engine.ofName b.engine
  let choice : List Finding :=
    match b.wsEndpoint with
    | some ws => [.ok "Attaching to configured endpoint" ws]
    | none =>
      if available.any (·.1 == wanted) then []
      else [.warning ("Configured engine '" ++ wanted.name ++ "' not found")
        "Set browser.engine to one of the browsers above"]
  (if available.isEmpty then
    [.error "No supported browser found" "Install Chrome, Edge or Firefox"] else []) ++
    available.map (fun (engine, program) => .ok engine.name program) ++ choice

/-- Checks the configuration and which browsers there are. -/
def doctorReport (s : Surroundings) : Report :=
  let (onConfig, c) := configFindings s
  let onBrowsers := browserFindings s c.browser
  let all := onConfig ++ onBrowsers
  let count (p : Finding → Bool) : String := toString (all.countP p)
  .printed (["", "🩺 domlogic doctor", "==================", "", "📋 Configuration"] ++
    onConfig.map Finding.line ++
    ["  Root scope:  " ++ c.scope.root, "  Child scope: " ++ c.scope.child, "", "🌐 Browsers"] ++
    onBrowsers.map Finding.line ++
    ["", "Summary: " ++ count Finding.isOk ++ " ok, " ++ count Finding.isWarning ++
      " warnings, " ++ count Finding.isError ++ " errors"])

/-- The shortest help that there is. -/
def usage : List String :=
  ["Logic relations over a live browser DOM", "", "Usage: domlogic [OPTIONS] <COMMAND>"]

/-- Carries out a command. `file` is the content of the file that a query names, and `live` answers
a query that is put to a browser. -/
def run (s : Surroundings) (file : Path → Option ByteArray)
    (live : Query → Scope → BrowserSettings → Report) : Command → Report
  | .query q =>
    match Config.loadOrDefault s.config with
    | .error e => .failed e.message
    | .ok c =>
      let scope := c.scope.overridden q.scope
      match q.html with
      | some path => q.answerFile scope path (file path)
      | none => live q scope (q.browser c)
  | .showConfig => showReport s
  | .initConfig force => initReport s force
  | .doctor => doctorReport s
  | .help => .printed usage
  | .version => .printed ["domlogic 0.1.0"]

end Command

end PageLogic
