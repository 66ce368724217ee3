/-!
# Kinds of authorities

Main statement: `ofText?_text`.
-/

namespace CredentialServer

/-- The kinds of authorities. -/
inductive AuthorityKind where
  | tls
  | ssh
  | static
  deriving DecidableEq, Repr

namespace AuthorityKind

def text : AuthorityKind → String
  | .tls => "tls"
  | .ssh => "ssh"
  | .static => "static"

def ofText? (s : String) : Option AuthorityKind := [tls, ssh, static].find? (fun k => k.text = s)

theorem ofText?_text (k : AuthorityKind) : ofText? k.text = some k := by cases k <;> decide

end AuthorityKind

end CredentialServer
