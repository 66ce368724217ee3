import CredentialServer.Config.Settings
import CredentialServer.Net.Address
import CredentialServer.Server.Listener
import CredentialServer.Server.World

/-!
# The command line

A server is told to check its configuration or to serve it. Options have long names and may have
their value attached; what the command line does not say may stand in the environment. Main
statements: `Invocation.read` reads arguments, and `run` does what they ask for, up to the point
where a server would listen.
-/

namespace CredentialServer

/-- What the program can do. -/
inductive Command where
  | serve
  | check
  deriving DecidableEq, Repr

/-- What arguments ask for. -/
inductive Invocation where
  /-- The arguments are not understood. -/
  | misused
  /-- Help or the version. -/
  | information
  | command (c : Command) (s : Settings)
  deriving DecidableEq, Repr

namespace Invocation

/-- An argument by its form. -/
inductive Argument where
  /-- Two hyphens alone. -/
  | separator
  /-- A long name, perhaps with a value attached. -/
  | long (name : String) (value : Option String)
  /-- Short names behind one hyphen. -/
  | short (letters : List Char)
  | plain
  deriving DecidableEq, Repr

def Argument.of (s : String) : Argument :=
  match s.toList with
  | ['-', '-'] => .separator
  | '-' :: '-' :: rest =>
    let name := rest.takeWhile (· ≠ '=')
    match rest.drop name.length with
    | '=' :: value => .long (String.ofList name) (some (String.ofList value))
    | _ => .long (String.ofList name) none
  | '-' :: letter :: rest => .short (letter :: rest)
  | _ => .plain

/-- Adds the value of a setting that has none yet. -/
def add (s : Settings) (name : Setting) (value : String) : Option Settings :=
  if (s.value? name).isNone ∧ name.accepts value then some ((name, value) :: s) else none

/-- Fills in what only the environment says. -/
def addVariables (environment : NameMap String) : List Setting → Settings → Option Settings
  | [], s => some s
  | name :: rest, s =>
    match s.value? name, environment.find? name.variableName with
    | none, some value => (add s name value).bind (addVariables environment rest)
    | _, _ => addVariables environment rest s

def readOptions (c : Command) (environment : NameMap String) (s : Settings) :
    List String → Invocation
  | [] =>
    match addVariables environment Setting.all s with
    | some s => .command c s
    | none => .misused
  | a :: rest =>
    match Argument.of a with
    | .plain => .misused
    | .separator => if rest.isEmpty then readOptions c environment s [] else .misused
    | .long name attached =>
      match Setting.ofFlag? name, attached, rest with
      | none, attached, _ =>
        if name = "help" ∧ attached = none then .information else .misused
      | some name, some value, rest =>
        match add s name value with
        | some s => readOptions c environment s rest
        | none => .misused
      | some name, none, value :: rest =>
        match Argument.of value, add s name value with
        | .plain, some s => readOptions c environment s rest
        | _, _ => .misused
      | some _, none, [] => .misused
    | .short letters =>
      match letters, rest with
      | 'h' :: _, _ => .information
      | ['c'], value :: rest =>
        match Argument.of value, add s .config value with
        | .plain, some s => readOptions c environment s rest
        | _, _ => .misused
      | 'c' :: letter :: letters, rest =>
        let value := if letter = '=' then letters else letter :: letters
        match add s .config (String.ofList value) with
        | some s => readOptions c environment s rest
        | none => .misused
      | _, _ => .misused
termination_by l => l.length

def read (environment : NameMap String) : List String → Invocation
  | [] => .misused
  | "check" :: rest => readOptions .check environment [] rest
  | "serve" :: rest => readOptions .serve environment [] rest
  | "help" :: rest => if rest ∈ [[], ["check"], ["serve"], ["help"]] then .information else .misused
  | a :: _ =>
    match Argument.of a with
    | .long name none => if name = "help" ∨ name = "version" then .information else .misused
    | .short ('h' :: _) | .short ('V' :: _) => .information
    | _ => .misused

end Invocation

/-! ### Doing what was asked for -/

/-- What came of an invocation. -/
inductive Outcome where
  | misused
  | information
  | failed (message : String)
  /-- The configuration is in order. -/
  | checked (summary : String)
  /-- A server can listen. -/
  | ready (endpoint : Endpoint) (world : World) (listener : Option Listener)

namespace Outcome

/-- The exit code of an outcome; that of a server which listens is decided by its end. -/
def exitCode : Outcome → UInt8
  | .misused => 2
  | .failed _ => 1
  | _ => 0

end Outcome

/-- How large a world is. -/
def World.summary (w : World) : String :=
  s!"configuration ok: {w.directory.accounts.size} accounts, {w.authorities.size} authorities, " ++
    s!"{w.engine.size} apis, {w.staticFiles.size} static files"

/-- Prepares the identity of a server that has one. -/
def establishAny (w : World) (now : Moment) (c : Config) :
    Except ListenerError (Option Listener) :=
  match c.serverIdentity with
  | none => .ok none
  | some identity =>
    (Listener.establish w.authorities c.authenticationAuthority now identity).map some

def checkConfig (files : Files) (now : Moment) (c : Config) : Outcome :=
  match World.load files c with
  | .error _ => .failed "configuration is invalid"
  | .ok w =>
    match establishAny w now c with
    | .error _ => .failed "server tls configuration is invalid"
    | .ok _ => .checked w.summary

def prepareServer (files : Files) (now : Moment) (c : Config) : Outcome :=
  match World.load files c with
  | .error _ => .failed "failed to load configuration"
  | .ok w =>
    match Endpoint.parse? c.listenAddress with
    | none => .failed "invalid listen address"
    | some endpoint =>
      match establishAny w now c with
      | .error _ => .failed "failed to set up server tls"
      | .ok listener => .ready endpoint w listener

/-- Does what arguments and environment ask for. -/
def run (files : Files) (now : Moment) (environment : NameMap String) (arguments : List String) :
    Outcome :=
  match Invocation.read environment arguments with
  | .misused => .misused
  | .information => .information
  | .command c s =>
    match s.load files with
    | .error e => .failed e.message
    | .ok config =>
      match c with
      | .check => checkConfig files now config
      | .serve => prepareServer files now config

end CredentialServer
