import PageLogic.Command.Run
/-!
The program: it finds out what is around it, carries out one command and prints the report. It opens
no connections, so a query that is put to a browser fails.
-/
namespace PageLogic.Program

/-- The content of a file, if there is one that can be read. -/
def contentOf (path : Path) : IO (Option ByteArray) := do
  try
    return some (← IO.FS.readBinFile path)
  catch _ =>
    return none

/-- Whether there is a program of that name, here or in one of the directories. -/
def isProgram (directories : List Path) (name : String) : IO Bool := do
  if (← contentOf name).isSome then return true
  if name.contains '/' then return false
  directories.anyM fun directory => return (← contentOf (Path.join directory name)).isSome

/-- What is around the program. -/
def surroundings : IO Surroundings := do
  let base : Path :=
    match ← IO.getEnv "HOME" with
    | some home => Path.join home ".domlogic"
    | none => ".domlogic"
  let paths : Paths := ⟨base⟩
  let config ← contentOf paths.configFile
  let directories := ((← IO.getEnv "PATH").getD "").splitOn ":"
  let programs ← (Engine.all.flatMap Engine.candidates).filterM (isProgram directories)
  return ⟨paths, config, programs.contains⟩

/-- Writes what a report says is to be saved. -/
def save (paths : Paths) (text : String) : IO Unit := do
  IO.FS.createDirAll paths.base
  IO.FS.writeFile paths.configFile text
  IO.FS.createDirAll paths.sessionsDir

/-- The report of a query that is put to a browser. -/
def unanswered (s : Surroundings) (_ : Query) (_ : Scope) (b : BrowserSettings) : Report :=
  match b.wsEndpoint with
  | some url => .failed (DevTools.sessionError (DevTools.unreachable url "no connection")).message
  | none => Query.unstarted s b "0"

end PageLogic.Program

open PageLogic Program in
/-- Carries out the command that the words write down. -/
def main (words : List String) : IO UInt32 := do
  match Command.parse? words with
  | none =>
    IO.eprintln "error: the command line could not be read"
    return 2
  | some command =>
    let s ← surroundings
    let file ← match command with
      | .query ⟨_, _, some path, _, _, _⟩ => contentOf path
      | _ => pure none
    let report := command.run s (fun _ => file) (unanswered s)
    if let some text := report.saved then save s.paths text
    IO.print report.stdout
    if let some message := report.failure then IO.eprintln ("Error: " ++ message)
    return UInt32.ofNat report.exitCode
