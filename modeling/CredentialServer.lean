import CredentialServer.Authority.Basic
import CredentialServer.Authority.Error
import CredentialServer.Authority.Kind
import CredentialServer.Authority.Ssh
import CredentialServer.Authority.Tls
import CredentialServer.Batch.Text
import CredentialServer.Bytes
import CredentialServer.Config.Basic
import CredentialServer.Config.Settings
import CredentialServer.Crypto.Curve
import CredentialServer.Crypto.Digest
import CredentialServer.Crypto.Ecdsa
import CredentialServer.Crypto.Edwards
import CredentialServer.Crypto.Modular
import CredentialServer.Crypto.Rsa
import CredentialServer.Crypto.Sha1
import CredentialServer.Crypto.Sha2
import CredentialServer.Der.Element
import CredentialServer.Der.Oid
import CredentialServer.Directory.Account
import CredentialServer.Directory.Basic
import CredentialServer.Directory.Error
import CredentialServer.Directory.Lineage
import CredentialServer.Document.Basic
import CredentialServer.Document.Scalar
import CredentialServer.Document.Toml
import CredentialServer.Grants.Compile
import CredentialServer.Grants.Engine
import CredentialServer.Grants.Error
import CredentialServer.Grants.Kind
import CredentialServer.Grants.Privilege
import CredentialServer.Grants.Template
import CredentialServer.Json.Literal
import CredentialServer.Json.Skip
import CredentialServer.KeyFile.Rsa
import CredentialServer.Main
import CredentialServer.NameMap
import CredentialServer.Net.Address
import CredentialServer.Proofs.Authority.Certifying
import CredentialServer.Proofs.Authority.Issuing
import CredentialServer.Proofs.Authority.Labelling
import CredentialServer.Proofs.Authority.Leading
import CredentialServer.Proofs.Authority.Stating
import CredentialServer.Proofs.Batch.Reading
import CredentialServer.Proofs.Config.Defaults
import CredentialServer.Proofs.Der.Reading
import CredentialServer.Proofs.Der.Writing
import CredentialServer.Proofs.Directory.Cycles
import CredentialServer.Proofs.Directory.Flattening
import CredentialServer.Proofs.Directory.Records
import CredentialServer.Proofs.Directory.Termination
import CredentialServer.Proofs.Directory.Validity
import CredentialServer.Proofs.Document.Abridging
import CredentialServer.Proofs.Grants.Acceptance
import CredentialServer.Proofs.Grants.Acting
import CredentialServer.Proofs.Grants.Binding
import CredentialServer.Proofs.Grants.Defects
import CredentialServer.Proofs.Grants.Exchange
import CredentialServer.Proofs.Grants.Expansion
import CredentialServer.Proofs.Grants.Policy
import CredentialServer.Proofs.Grants.Sequence
import CredentialServer.Proofs.Grants.Substance
import CredentialServer.Proofs.Grants.Vacancy
import CredentialServer.Proofs.Json.Numbers
import CredentialServer.Proofs.Json.Strings
import CredentialServer.Proofs.Json.Values
import CredentialServer.Proofs.Server.Atomicity
import CredentialServer.Proofs.Server.Checking
import CredentialServer.Proofs.Server.Confinement
import CredentialServer.Proofs.Server.Credentials
import CredentialServer.Proofs.Server.Expiry
import CredentialServer.Proofs.Server.Identity
import CredentialServer.Proofs.Server.Interleaving
import CredentialServer.Proofs.Server.Lifespans
import CredentialServer.Proofs.Server.Loading
import CredentialServer.Proofs.Server.Mediation
import CredentialServer.Proofs.Server.Outcome
import CredentialServer.Proofs.Server.Provenance
import CredentialServer.Proofs.Server.Publication
import CredentialServer.Proofs.Server.Serving
import CredentialServer.Proofs.Ssh.Binding
import CredentialServer.Proofs.Ssh.Reading
import CredentialServer.Proofs.Text.Armour
import CredentialServer.Proofs.Time.Ranges
import CredentialServer.Proofs.Time.Zero
import CredentialServer.Proofs.Token.Form
import CredentialServer.Proofs.Token.History
import CredentialServer.Proofs.Token.Screening
import CredentialServer.Server.Authentication
import CredentialServer.Server.CommandLine
import CredentialServer.Server.Description
import CredentialServer.Server.Files
import CredentialServer.Server.Http
import CredentialServer.Server.Listener
import CredentialServer.Server.Response
import CredentialServer.Server.Route
import CredentialServer.Server.World
import CredentialServer.Ssh.Certificate
import CredentialServer.Ssh.PrivateKey
import CredentialServer.Ssh.PublicKey
import CredentialServer.Ssh.Wire
import CredentialServer.Text.Base64
import CredentialServer.Text.Hidden
import CredentialServer.Text.Pem
import CredentialServer.Text.Quoted
import CredentialServer.Text.Split
import CredentialServer.Time.Calendar
import CredentialServer.Time.Instant
import CredentialServer.Time.Lifespan
import CredentialServer.Time.Moment
import CredentialServer.Token.Format
import CredentialServer.Token.Registry
import CredentialServer.X509.Anchor
import CredentialServer.X509.Certificate
import CredentialServer.X509.Extension
import CredentialServer.X509.Name
import CredentialServer.X509.PublicKey
import CredentialServer.X509.Request
