import PageLogic.Browser.Engine
import PageLogic.Config
import PageLogic.Json.Read
import PageLogic.Paths
/-!
Starting a browser: the program, its arguments, and how the page to talk to is found afterwards.
-/
namespace PageLogic.Browser

/-- The arguments with which a browser listens for commands at a number. -/
def arguments (e : Engine) (number : String) (profile : Path) (headed : Bool) : List String :=
  match e with
  | .firefox =>
    ["--remote-debugging-port", number, "--profile", profile, "--no-remote"] ++
      (if headed then [] else ["--headless"]) ++ ["about:blank"]
  | .chrome | .edge =>
    ["--remote-debugging-port=" ++ number, "--user-data-dir=" ++ profile, "--no-first-run",
      "--no-default-browser-check", "--disable-background-networking", "--disable-extensions",
      "--disable-sync", "--disable-translate", "--password-store=basic"] ++
      (if headed then [] else ["--headless=new"]) ++ ["--window-size=1280,720", "about:blank"]

/-- What is started. -/
structure Start where
  program : String
  arguments : List String
  deriving DecidableEq, Repr

/-- What is started for given settings, to listen at that number. The profile is that of the session
named `default` unless the settings name a directory. -/
def start (settings : BrowserSettings) (paths : Paths) (installed : String → Bool)
    (number : String) : Except Error Start :=
  let engine := Engine.ofName settings.engine
  match engine.program? installed with
  | none => .error (.session (engine.name ++ " not found. Please install it."))
  | some program =>
    let profile := settings.userDataDir.getD (paths.sessionProfile "default")
    .ok ⟨program, arguments engine number profile settings.headed⟩

/-- The browser did not listen in time. -/
def notReady (settings : BrowserSettings) (number : String) : Error :=
  let secs := toString settings.startupTimeoutSecs
  .session ("CDP not ready after " ++ secs ++ "s on port " ++ number)

/-- The address of the first page among the targets that tells one. -/
def firstPage (targets : List Json) : Option String :=
  (targets.filter fun t => (t.get? "type").bind Json.string? == some "page").findSome? fun t =>
    (t.get? "webSocketDebuggerUrl").bind Json.string?

/-- How often the list of targets is asked for. -/
def attempts : Nat := 10

/-- The address of a page, from what each request for the list of targets brings. A request may
bring nothing, and a list may have no page yet. -/
def pageAddress (request : Nat → Option String) : Except Error String :=
  let found := (List.range attempts).findSome? fun n => do
    let text ← request n
    let targets ← (Json.parse? text).bind Json.array?
    firstPage targets
  match found with
  | some address => .ok address
  | none => .error (.session "No page target found after retries")

end PageLogic.Browser
