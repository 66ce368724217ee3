import CredentialServer.Server.CommandLine
import Std.Time.DateTime.Timestamp

/-!
# The program

Reads the environment, the clock and the files that a configuration names, and does what
`CredentialServer.run` says. Accepting connections is left to a front end, to which the program
reports where it should listen.
-/

namespace CredentialServer

/-- What can be read from something that was opened; a directory cannot be read. -/
def readEntry (handle : IO.FS.Handle) : IO FileEntry :=
  tryCatch (do return .file (← handle.readBinToEnd).toList) (fun _ => return .directory)

def addPath (files : Files) (path : String) : IO Files :=
  tryCatch (do return files.put path (← readEntry (← IO.FS.Handle.mk path .read)))
    (fun _ => return files)

/-- The values of the variables that settings come from. -/
def readEnvironment : IO (NameMap String) := do
  let mut environment := NameMap.empty
  for s in Setting.all do
    if let some value := ← IO.getEnv s.variableName then
      environment := environment.insert s.variableName value
  return environment

/-- The paths that a configuration names. -/
def pathsOf (c : Config) : List String :=
  c.staticFiles.map (joinPath c.staticDir) ++
    c.authorities.values.flatMap (fun a => [a.key, a.cert].map (joinPath c.authorityDir))

/-- The files that settings lead to. -/
def readFiles (s : Settings) : IO Files := do
  let found ← (s.value? .config).toList.foldlM addPath Files.empty
  let found ← Settings.searchPaths.foldlM addPath found
  match s.load found with
  | .ok c => (pathsOf c).foldlM addPath found
  | .error _ => return found

/-- The clock and a source of random octets, which repeats itself after a while. -/
def readMoment : IO Moment := do
  let now : Instant := ⟨(← Std.Time.Timestamp.now).toNanosecondsSinceUnixEpoch.val⟩
  let random ← IO.getRandomBytes 4096
  return ⟨now, now, fun i => random.get! (i % 4096)⟩

end CredentialServer

open CredentialServer

/-- Runs a command, shows what came of it and exits as it says. -/
def main (arguments : List String) : IO UInt32 := do
  let environment ← readEnvironment
  let files ← match Invocation.read environment arguments with
    | .command _ s => readFiles s
    | _ => pure Files.empty
  let outcome := run files (← readMoment) environment arguments
  match outcome with
  | .misused => IO.eprintln "usage: check|serve [options]"
  | .information => IO.println "check: validate a configuration; serve: answer requests"
  | .failed message => IO.eprintln ("Error: " ++ message)
  | .checked summary => IO.println summary
  | .ready endpoint _ _ => IO.println s!"ready to listen on {endpoint.address.text}:{endpoint.port}"
  return outcome.exitCode.toUInt32
