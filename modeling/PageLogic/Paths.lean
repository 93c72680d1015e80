/-!
Where the program keeps its files: a configuration file and one browser profile for each session,
all beneath one base directory.
-/
namespace PageLogic

/-- A path as it is written. -/
abbrev Path := String

/-- A path beneath a directory. An absolute name takes the place of the directory, and a slash is
put between the two where none is. -/
def Path.join (directory name : Path) : Path :=
  if name.toList.head? = some '/' then name
  else if directory.isEmpty || directory.toList.getLast? = some '/' then directory ++ name
  else directory ++ "/" ++ name

structure Paths where
  base : Path
  deriving DecidableEq, Repr

namespace Paths

def configFile (p : Paths) : Path :=
  Path.join p.base "config.json"

def sessionsDir (p : Paths) : Path :=
  Path.join p.base "sessions"

/-- A session's name without colons and separators. -/
def safeName (session : String) : String :=
  session.map fun c => if c = ':' || c = '/' || c = '\\' then '_' else c

/-- The browser profile of a session. -/
def sessionProfile (p : Paths) (session : String) : Path :=
  Path.join p.sessionsDir (safeName session)

end Paths

end PageLogic
