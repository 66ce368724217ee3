import CredentialServer.Grants.Engine
import CredentialServer.Server.Files

/-!
# Worlds

A world is everything that a server answers from and that no request changes. It is loaded from a
configuration and the files that the configuration names; whatever is wrong with either is found
then. Main statements: `staticFiles_load` (a static file lies directly in its directory) and
`engine_load` (the engine is that of the configured grants).
-/

namespace CredentialServer

/-- Why a world cannot be loaded. -/
inductive LoadError where
  | staticFile (name : String)
  | invalidStaticName (name : String)
  | emptyAuthorityName
  | authorityFile (name file : String)
  | authority (name : String) (e : AuthorityError)
  | unknownAuthentication (name : String)
  | authenticationNotTls (name : String) (kind : AuthorityKind)
  | directory (e : DirectoryError)
  | grants (e : GrantError)
  deriving DecidableEq, Repr

/-- What an error says, if it has a text of its own. -/
def LoadError.message? : LoadError → Option String
  | .staticFile _ | .authorityFile .. => none
  | .invalidStaticName name => some ("invalid static file name: " ++ quoted name)
  | .emptyAuthorityName => some "an authority name is required"
  | .authority name e => e.message?.map (fun m => s!"cannot load authority {name}: {m}")
  | .unknownAuthentication name => some s!"authentication authority {name} is not configured"
  | .authenticationNotTls name kind =>
    some s!"authentication authority {name} is a {kind.text} authority, not tls"
  | .directory e => some e.message
  | .grants e => some e.message

/-- What a server answers from. -/
structure World where
  engine : Engine
  authorities : Authorities
  /-- The authority whose certificates authenticate requests. -/
  authentication : TlsAuthority
  /-- The paths of static files by name. -/
  staticFiles : NameMap String

namespace World

/-- The paths of static files, each of which can be opened. -/
def findStaticFiles (files : Files) (dir : String) :
    NameMap String → List String → Except LoadError (NameMap String)
  | found, [] => .ok found
  | found, name :: rest =>
    if Files.isName name then
      let path := joinPath dir name
      if files.canOpen path then findStaticFiles files dir (found.insert name path) rest
      else .error (.staticFile name)
    else .error (.invalidStaticName name)

def loadAuthority (files : Files) (dir name : String) (a : AuthorityFiles) :
    Except LoadError Authority :=
  if name = "" then .error .emptyAuthorityName
  else match files.read? (joinPath dir a.key) with
    | none => .error (.authorityFile name a.key)
    | some key =>
      match files.read? (joinPath dir a.cert) with
      | none => .error (.authorityFile name a.cert)
      | some cert =>
        match Authority.load a.kind key cert with
        | .ok authority => .ok authority
        | .error e => .error (.authority name e)

/-- The authority whose certificates authenticate requests. -/
def findAuthentication (authorities : Authorities) (name : String) :
    Except LoadError TlsAuthority :=
  match authorities.find? name with
  | none => .error (.unknownAuthentication name)
  | some (.tls a) => .ok a
  | some a => .error (.authenticationNotTls name a.kind)

def loadEngine (authorities : Authorities) (c : Config) : Except LoadError Engine :=
  match Directory.ofConfig c.groups c.accounts with
  | .error e => .error (.directory e)
  | .ok directory =>
    match Engine.compile directory authorities c.grants with
    | .error e => .error (.grants e)
    | .ok engine => .ok engine

/-- Loads the world that a configuration describes. -/
def load (files : Files) (c : Config) : Except LoadError World := do
  let staticFiles ← findStaticFiles files c.staticDir ∅ c.staticFiles
  let authorities ← c.authorities.mapM (loadAuthority files c.authorityDir)
  let authentication ← findAuthentication authorities c.authenticationAuthority
  let engine ← loadEngine authorities c
  return { engine, authorities, authentication, staticFiles }

def directory (w : World) : Directory := w.engine.directory

theorem find?_findStaticFiles {files : Files} {dir : String} {names : List String}
    {found result : NameMap String} (h : findStaticFiles files dir found names = .ok result)
    {name path : String} (hp : result.find? name = some path) :
    found.find? name = some path ∨
      name ∈ names ∧ Files.isName name = true ∧ path = joinPath dir name := by
  induction names generalizing found with
  | nil => cases h; exact .inl hp
  | cons n names ih =>
    simp only [findStaticFiles] at h
    split at h
    · next hn =>
      split at h
      · rcases ih h with hf | ⟨hm, hi, he⟩
        · rw [NameMap.find?_insert] at hf
          split at hf
          · next heq => cases hf; subst heq; exact .inr ⟨List.mem_cons_self, hn, rfl⟩
          · exact .inl hf
        · exact .inr ⟨List.mem_cons_of_mem _ hm, hi, he⟩
      · cases h
    · cases h

/-- A static file is configured and lies directly in the directory of static files. -/
theorem staticFiles_load {files : Files} {c : Config} {w : World} (h : load files c = .ok w)
    {name path : String} (hp : w.staticFiles.find? name = some path) :
    name ∈ c.staticFiles ∧ Files.isName name = true ∧ path = joinPath c.staticDir name := by
  simp only [load, bind, Except.bind] at h
  split at h
  · cases h
  · next found hf =>
    repeat' split at h
    all_goals cases h
    rcases find?_findStaticFiles hf hp with hp | hp
    · cases hp
    · exact hp

theorem loadEngine_eq_ok {authorities : Authorities} {c : Config} {e : Engine}
    (h : loadEngine authorities c = .ok e) :
    ∃ directory, Directory.ofConfig c.groups c.accounts = .ok directory ∧
      Engine.compile directory authorities c.grants = .ok e := by
  simp only [loadEngine] at h
  split at h
  · cases h
  · next directory hd =>
    split at h
    · cases h
    · next engine he => cases h; exact ⟨directory, hd, he⟩

theorem engine_load {files : Files} {c : Config} {w : World} (h : load files c = .ok w) :
    ∃ directory, Directory.ofConfig c.groups c.accounts = .ok directory ∧
      Engine.compile directory w.authorities c.grants = .ok w.engine := by
  simp only [load, bind, Except.bind] at h
  split at h
  · cases h
  split at h
  · cases h
  split at h
  · cases h
  split at h
  · cases h
  next engine he => cases h; exact loadEngine_eq_ok he

end World

end CredentialServer
