import PageLogic.Fault
import PageLogic.Json.Written
import PageLogic.Scope
/-!
The configuration: the scopes in effect when a command does not name any, and how a browser is
started or reached. It is kept as JSON, in which every part that is missing has its default.
-/
namespace PageLogic

/-- How a browser is started or reached. -/
structure BrowserSettings where
  engine : String
  /-- Whether its window is shown. -/
  headed : Bool
  /-- The page of a running browser, to be used instead of starting one. -/
  wsEndpoint : Option String
  userDataDir : Option String
  commandTimeoutSecs : Nat
  startupTimeoutSecs : Nat
  deriving DecidableEq, Repr

def BrowserSettings.default : BrowserSettings :=
  ⟨"chrome", false, none, none, 30, 15⟩

structure Config where
  scope : Scope
  browser : BrowserSettings
  deriving DecidableEq, Repr

namespace Config

def default : Config := ⟨.everything, .default⟩

/-- The first rule that a configuration breaks. -/
def violation? (c : Config) : Option String :=
  if Text.trim c.scope.root.toList = [] then some "scope.root must not be empty"
  else if Text.trim c.scope.child.toList = [] then some "scope.child must not be empty"
  else if c.browser.commandTimeoutSecs = 0 then
    some "browser.commandTimeoutSecs must be positive"
  else none

/-! ### Writing -/

def scopeJson (s : Scope) : Json :=
  .object [("root", .string s.root), ("child", .string s.child)]

def optionalJson (s : Option String) : Json :=
  match s with
  | some s => .string s
  | none => .null

def browserJson (b : BrowserSettings) : Json :=
  .object [
    ("engine", .string b.engine),
    ("headed", .bool b.headed),
    ("wsEndpoint", optionalJson b.wsEndpoint),
    ("userDataDir", optionalJson b.userDataDir),
    ("commandTimeoutSecs", .number (.whole b.commandTimeoutSecs)),
    ("startupTimeoutSecs", .number (.whole b.startupTimeoutSecs))]

def toJson (c : Config) : Json :=
  .object [("scope", scopeJson c.scope), ("browser", browserJson c.browser)]

/-- The text of the configuration file. -/
def text (c : Config) : String :=
  c.toJson.pretty

/-! ### Reading -/

open Json.Written in
def scope? (w : Json.Written) : Option Scope := do
  match ← record? ["root", "child"] w with
  | [root, child] =>
    some ⟨← orDefault string? Scope.everything.root root,
      ← orDefault string? Scope.everything.child child⟩
  | _ => none

open Json.Written in
def browser? (w : Json.Written) : Option BrowserSettings := do
  let fallback := BrowserSettings.default
  match ← record? ["engine", "headed", "wsEndpoint", "userDataDir", "commandTimeoutSecs",
      "startupTimeoutSecs"] w with
  | [engine, headed, wsEndpoint, userDataDir, commandTimeoutSecs, startupTimeoutSecs] =>
    some ⟨← orDefault string? fallback.engine engine,
      ← orDefault bool? fallback.headed headed,
      ← orNothing string? wsEndpoint,
      ← orNothing string? userDataDir,
      ← orDefault nat? fallback.commandTimeoutSecs commandTimeoutSecs,
      ← orDefault nat? fallback.startupTimeoutSecs startupTimeoutSecs⟩
  | _ => none

open Json.Written in
/-- The configuration that a written value describes, whether or not it keeps the rules. -/
def ofWritten? (w : Json.Written) : Option Config := do
  match ← record? ["scope", "browser"] w with
  | [scope, browser] =>
    some ⟨← orDefault scope? .everything scope, ← orDefault browser? .default browser⟩
  | _ => none

/-- The configuration that a text describes, if the text is right and no rule is broken. -/
def ofText (text : String) : Except Error Config :=
  match (Json.Written.parse? text.toList).bind ofWritten? with
  | none => .error .json
  | some c =>
    match c.violation? with
    | some rule => .error (.config rule)
    | none => .ok c

/-- The configuration in a file, whose content is given if the file is there. -/
def load (content : Option ByteArray) : Except Error Config :=
  match content with
  | none => .error .io
  | some bytes =>
    match String.fromUTF8? bytes with
    | none => .error .io
    | some text => ofText text

/-- As `load`, but where there is no file the defaults apply. -/
def loadOrDefault (content : Option ByteArray) : Except Error Config :=
  match content with
  | none => .ok default
  | some bytes => load (some bytes)

end Config

end PageLogic
