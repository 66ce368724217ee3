import CredentialServer.Config.Basic
import CredentialServer.Document.Toml
import CredentialServer.Server.Files
import CredentialServer.Text.Quoted

/-!
# Settings

Settings come from the command line and the environment. They name the file of the configuration
and replace some of its fields. Main statements: `Setting.ofFlag?_flag` and `apply_eq_self_iff`.
-/

namespace CredentialServer

/-- What a setting is for. -/
inductive Setting where
  | config
  | listenAddress
  | authorityDir
  | staticDir
  | logLevel
  deriving DecidableEq, Repr

namespace Setting

def all : List Setting := [.config, .listenAddress, .authorityDir, .staticDir, .logLevel]

/-- The name of a setting on the command line. -/
def flag : Setting → String
  | .config => "config"
  | .listenAddress => "listen-addr"
  | .authorityDir => "authority-dir"
  | .staticDir => "static-dir"
  | .logLevel => "log-level"

/-- The name of a setting in the environment. -/
def variableName : Setting → String
  | .config => "KEYSERVER_CONFIG"
  | .listenAddress => "KEYSERVER_LISTEN_ADDR"
  | .authorityDir => "KEYSERVER_AUTHORITY_DIR"
  | .staticDir => "KEYSERVER_STATIC_DIR"
  | .logLevel => "KEYSERVER_LOG_LEVEL"

/-- Whether a setting is a path, which must not be empty. -/
def isPath : Setting → Bool
  | .config | .authorityDir | .staticDir => true
  | .listenAddress | .logLevel => false

/-- Whether a value can be that of a setting. -/
def accepts (s : Setting) (value : String) : Bool := !(s.isPath && value.isEmpty)

/-- The setting with a name on the command line. -/
def ofFlag? (name : String) : Option Setting := all.find? (fun s => s.flag = name)

theorem ofFlag?_flag (s : Setting) : ofFlag? s.flag = some s := by cases s <;> decide

end Setting

/-- The values of settings; of two for one setting the first counts. -/
abbrev Settings := List (Setting × String)

/-- Why there is no configuration. -/
inductive ConfigError where
  | unreadable (path : String)
  | malformed (path : String)
  deriving DecidableEq, Repr

def ConfigError.message : ConfigError → String
  | .unreadable path => "failed to read config file: " ++ quotedPath path
  | .malformed path => "failed to parse config file: " ++ quotedPath path

namespace Settings

def value? (s : Settings) (name : Setting) : Option String :=
  (s.find? (fun e => e.1 = name)).map (·.2)

/-- Where a configuration is looked for if none is named. -/
def searchPaths : List String := ["/etc/keyserver/config.toml", "./keyserver.toml"]

/-- The configuration in a file. -/
def readConfig (files : Files) (path : String) : Except ConfigError Config :=
  match (files.read? path).bind Bytes.toText? with
  | none => .error (.unreadable path)
  | some text =>
    match (Toml.parse? text).bind (Config.ofDocument? .toml) with
    | some c => .ok c
    | none => .error (.malformed path)

/-- The path of the configuration: the one that is named, or the first that there is. -/
def configPath? (files : Files) (s : Settings) : Option String :=
  match s.value? .config with
  | some path => some path
  | none => searchPaths.find? files.canOpen

/-- A configuration whose fields are replaced by settings. -/
def apply (s : Settings) (c : Config) : Config :=
  { c with
    listenAddress := (s.value? .listenAddress).getD c.listenAddress
    authorityDir := (s.value? .authorityDir).getD c.authorityDir
    staticDir := (s.value? .staticDir).getD c.staticDir }

/-- Settings change a configuration just where they give one of these fields another value. -/
theorem apply_eq_self_iff {s : Settings} {c : Config} : s.apply c = c ↔
    (∀ v, s.value? .listenAddress = some v → v = c.listenAddress) ∧
    (∀ v, s.value? .authorityDir = some v → v = c.authorityDir) ∧
    (∀ v, s.value? .staticDir = some v → v = c.staticDir) := by
  have hkept : ∀ (given : Option String) (field : String),
      given.getD field = field ↔ ∀ v, given = some v → v = field := by
    intro given field
    cases given <;> simp
  rw [← hkept, ← hkept, ← hkept]
  constructor
  · intro h
    exact ⟨congrArg Config.listenAddress h, congrArg Config.authorityDir h,
      congrArg Config.staticDir h⟩
  · rintro ⟨hlisten, hauthority, hstatic⟩
    unfold apply
    rw [hlisten, hauthority, hstatic]

/-- The configuration that settings select. -/
def load (files : Files) (s : Settings) : Except ConfigError Config :=
  match s.configPath? files with
  | none => .ok (s.apply Config.default)
  | some path =>
    match readConfig files path with
    | .ok c => .ok (s.apply c)
    | .error e => .error e

end Settings

end CredentialServer
