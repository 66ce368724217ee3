import CredentialServer.Server.World

/-!
# Descriptions

What a log may show of authorities, engines, registries and worlds: how many things there are and
whose they are, but no key and no token.
-/

namespace CredentialServer

/-- A name with fields in curly brackets, perhaps with more that is left out. -/
def describeFields (name : String) (fields : List (String × String)) (more : Bool) : String :=
  let shown := fields.map (fun f => f.1 ++ ": " ++ f.2) ++ (if more then [".."] else [])
  name ++ " \x7b " ++ ", ".intercalate shown ++ " \x7d"

namespace Ssh

def CurveName.description : CurveName → String
  | .p256 => "NistP256"
  | .p384 => "NistP384"
  | .p521 => "NistP521"

def PublicKey.description : PublicKey → String
  | .rsa .. => describeFields "Rsa" [("hash", "Some(Sha512)")] false
  | .dsa .. => "Dsa"
  | .ecdsa curve _ => describeFields "Ecdsa" [("curve", curve.description)] false
  | .ed25519 _ => "Ed25519"
  | .tokenEcdsa .. => "SkEcdsaSha2NistP256"
  | .tokenEd25519 .. => "SkEd25519"
  | .other name _ => "Other(AlgorithmName \x7b id: " ++ quoted name ++ " \x7d)"

end Ssh

/-- An authority without its keys. -/
def Authority.description : Authority → String
  | .tls a => "Tls(" ++
      describeFields "TlsAuthority" [("subject", quoted a.subjectText)] true ++ ")"
  | .ssh a => "Ssh(" ++
      describeFields "SshAuthority" [("algorithm", a.key.publicKey.description)] true ++ ")"
  | .static a => "Static(" ++
      describeFields "StaticAuthority" [("cert_len", toString a.published.length)] true ++ ")"

def Engine.description (e : Engine) : String :=
  describeFields "GrantsEngine" [("apis", toString e.size)] false

/-- A registry without its tokens. -/
def Registry.description (r : Registry) : String :=
  describeFields "TokenRegistry" [("outstanding", toString r.size)] false

/-- A world and its registry, in numbers. -/
def World.description (w : World) (r : Registry) : String :=
  describeFields "AppState"
    [("engine", w.engine.description), ("accounts", toString w.directory.accounts.size),
      ("authorities", toString w.authorities.size), ("registry", r.description),
      ("static_files", toString w.staticFiles.size)] true

end CredentialServer
