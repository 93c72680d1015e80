import PageLogic.Text.Lowercase
/-!
The browsers that can be started, and the names under which their programs are sought.
-/
namespace PageLogic

inductive Engine where
  | chrome
  | edge
  | firefox
  deriving DecidableEq, Repr

namespace Engine

def name : Engine → String
  | .chrome => "chrome"
  | .edge => "edge"
  | .firefox => "firefox"

/-- The engine that a name stands for, letters compared without case. Names that stand for none
stand for the first. -/
def ofName (s : String) : Engine :=
  let s := Text.lowercase s
  if s = "firefox" || s = "ff" then .firefox
  else if s = "edge" || s = "msedge" then .edge
  else .chrome

/-- All engines in the order in which they are listed. -/
def all : List Engine := [.chrome, .edge, .firefox]

/-- Programs that may be the browser, the preferred first. -/
def candidates : Engine → List String
  | .chrome => [
      "google-chrome", "google-chrome-stable", "chromium", "chromium-browser",
      "/usr/bin/google-chrome", "/usr/bin/chromium"]
  | .edge => ["microsoft-edge", "microsoft-edge-stable", "/usr/bin/microsoft-edge"]
  | .firefox => ["firefox", "/usr/bin/firefox"]

/-- The first candidate that is installed. -/
def program? (installed : String → Bool) (e : Engine) : Option String :=
  e.candidates.find? installed

/-- The engines that are installed, each with its program. -/
def available (installed : String → Bool) : List (Engine × String) :=
  all.filterMap fun e => (e.program? installed).map (e, ·)

end Engine

end PageLogic
